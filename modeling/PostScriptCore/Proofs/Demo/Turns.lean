import PostScriptCore.Proofs.Demo.Building
import PostScriptCore.Proofs.Machine.Rounds

/-!
# The turns of the demonstration

What the contexts of the demonstration look like between turns does not depend on the order of the turns.  A
worker has a few terms and the sum of the others on its stack; the root has the handles of the workers that it
has forked, and waits for the first one that it has not joined yet.

* `Demo.workerOperands`, `Demo.worker`, `Demo.root` — the contexts between turns.
* `Demo.State`, `Demo.play` — all of them.
* `Demo.switches_round`, `Demo.switches_fork`, `Demo.switches_joins`, `Demo.switches_resumed` — the turns.
-/

namespace PostScriptCore.Demo

open Scene (Does Leads Switches Yields)

/-! ## Sums -/

/-- The sum of the first terms. -/
def total (terms : Nat) : Nat := terms * (terms + 1) / 2

lemma total_succ (n : Nat) : total (n + 1) = total n + (n + 1) := by
  have hsum : (n + 1) * (n + 1 + 1) = n * (n + 1) + (n + 1) * 2 := by rw [Nat.mul_comm n, ← Nat.mul_add]
  rw [total, hsum, Nat.add_mul_div_right _ _ (by decide), total]

lemma total_mono {m n : Nat} (h : m ≤ n) : total m ≤ total n := by
  induction h with
  | refl => exact Nat.le_refl _
  | step h ih => exact Nat.le_trans ih (by rw [Nat.succ_eq_add_one, total_succ]; exact Nat.le_add_right _ _)

lemma numbers_succ (n : Nat) : numbers (n + 1) = numbers n ++ [Object.int (n + 1 : Nat)] := by
  rw [numbers, List.range_succ, List.map_append]
  rfl

/-! ## The contexts -/

/-- The operands of a worker that still has so many rounds to go: the first terms, and the sum of the others. -/
def workerOperands (terms left : Nat) : List Object :=
  numbers left ++ [Object.int (total terms - total left : Nat)]

/-- A worker that still has so many turns to go, the last one to end. -/
def worker (word : String → Object) (terms id : Nat) : Nat → Portrait
  | 0 => ⟨id, .zombie, none, workerOperands terms 0, none, [], []⟩
  | left + 1 => .running id (workerOperands terms left) (repeated left (round word))

/-- The handles of the first workers.  The root is context 1. -/
def handles (workers : Nat) : List Object := (List.range workers).map fun j => Object.context (j + 2)

/-- How far the root has got. -/
inductive Phase
  /-- So many workers are still to be forked. -/
  | forking (left : Nat)
  /-- So many workers are still to be joined.  The root waits for the first of them, if there is one, and has
  finished otherwise. -/
  | joining (left : Nat)

namespace Phase

/-- How many workers are still to be forked or joined. -/
def left : Phase → Nat
  | forking left | joining left => left

/-- How many workers have been forked. -/
def forked (workers : Nat) : Phase → Nat
  | forking left => workers - left
  | joining _ => workers

/-- How many workers have been joined. -/
def joined (workers : Nat) : Phase → Nat
  | forking _ => 0
  | joining left => workers - left

/-- The worker has been forked, and not joined yet. -/
def Employs (workers j : Nat) (phase : Phase) : Prop := phase.joined workers ≤ j ∧ j < phase.forked workers

instance (workers j : Nat) (phase : Phase) : Decidable (phase.Employs workers j) :=
  inferInstanceAs (Decidable (_ ∧ _))

lemma forked_le (workers : Nat) (phase : Phase) : phase.forked workers ≤ workers := by
  cases phase with
  | forking left => exact Nat.sub_le _ _
  | joining left => exact Nat.le_refl _

/-- When there is nobody left to be joined, nobody is employed. -/
lemma not_employs_joined (workers j : Nat) : ¬ (joining 0).Employs workers j := fun hemploys =>
  absurd hemploys.2 (Nat.not_lt.mpr hemploys.1)

/-- Neither is before anybody has been forked. -/
lemma not_employs_start (workers j : Nat) : ¬ (forking workers).Employs workers j := fun hemploys => by
  have hlt : j < workers - workers := hemploys.2
  omega

end Phase

/-- The objects that `vmstatus` pushes. -/
def status (localVM : Memory) : List Object :=
  [Action.clamp localVM.level, Action.clamp localVM.arena.used, Action.clamp localVM.arena.max]

/-- The root. -/
def root (σ : Stage) (workers terms : Nat) (body : Object) : Phase → Portrait
  | .forking left => .running 1 (handles (workers - left))
      (repeated left (forkCode σ.machine.word terms body) ++ closing σ.machine.word workers)
  | .joining 0 => ⟨1, .zombie, none, handles workers ++ status σ.localVM, none, [], []⟩
  | .joining (left + 1) => ⟨1, .wait, some (workers - (left + 1) + 2), handles workers,
      some (receiptCode σ.machine.word ++ closing σ.machine.word left),
      [Object.operator σ.machine.system.join, Object.context (workers - (left + 1) + 2)], []⟩

/-- What is printed for a worker. -/
def line (terms : Nat) : String := toString (total terms) ++ "\n"

/-- What is printed for so many workers. -/
def lines (terms joined : Nat) : String := String.join (List.replicate joined (line terms))

lemma lines_succ (terms joined : Nat) : lines terms (joined + 1) = lines terms joined ++ line terms := by
  rw [lines, List.replicate_succ', String.join, List.foldl_append]
  rfl

/-- All contexts between two turns. -/
structure State where
  phase : Phase
  /-- How many turns each worker still has to go. -/
  turns : Nat → Nat

/-- The state as a play. -/
def play (σ : Stage) (workers terms : Nat) (body : Object) (a : State) : Play where
  cast
    | 0 => none
    | 1 => some (root σ workers terms body a.phase)
    | j + 2 =>
      if a.phase.Employs workers j then some (worker σ.machine.word terms (j + 2) (a.turns j)) else none
  nextId := a.phase.forked workers + 2
  text := lines terms (a.phase.joined workers)

lemma cast_of_employs {σ : Stage} {workers terms j : Nat} {body : Object} {a : State}
    (h : a.phase.Employs workers j) : (play σ workers terms body a).cast (j + 2) =
      some (worker σ.machine.word terms (j + 2) (a.turns j)) := if_pos h

lemma cast_of_not_employs {σ : Stage} {workers terms j : Nat} {body : Object} {a : State}
    (h : ¬ a.phase.Employs workers j) : (play σ workers terms body a).cast (j + 2) = none := if_neg h

/-- The root may be all there is. -/
lemma cast_of_nobody {σ : Stage} {workers terms id : Nat} {body : Object} {a : State} (hid : id ≠ 1)
    (h : ∀ j, ¬ a.phase.Employs workers j) : (play σ workers terms body a).cast id = none := by
  match id, hid with
  | 0, _ => rfl
  | j + 2, _ => exact cast_of_not_employs (h j)

/-- Apart from the root, the cast depends on the workers only. -/
lemma cast_congr {σ : Stage} {workers terms id : Nat} {body : Object} {a b : State} (hid : id ≠ 1)
    (h : ∀ j, id = j + 2 → (a.phase.Employs workers j ↔ b.phase.Employs workers j) ∧
      (a.phase.Employs workers j → a.turns j = b.turns j)) :
    (play σ workers terms body a).cast id = (play σ workers terms body b).cast id := by
  match id, hid with
  | 0, _ => rfl
  | j + 2, _ =>
    obtain ⟨hiff, hturns⟩ := h j rfl
    by_cases hemploys : a.phase.Employs workers j
    · rw [cast_of_employs hemploys, cast_of_employs (hiff.mp hemploys), hturns hemploys]
    · rw [cast_of_not_employs hemploys, cast_of_not_employs (hemploys ∘ hiff.mpr)]

/-! ## The setting -/

/-- Where the program is run. -/
structure Setting (workers terms : Nat) (σ : Stage) (body : Object) : Prop where
  ready : ∃ count, σ.machine.Ready count
  memory : Memory.create .localVM σ.machine.settings = .ok σ.localVM
  exec : 4 ≤ σ.machine.settings.execStackLimit
  limit : workers + terms + 2 ≤ σ.machine.settings.operandStackLimit
  few : workers ≤ Action.maxInteger
  terms_pos : 0 < terms
  sum : total terms ≤ Action.maxInteger
  isProc : body.isProc = true
  bank : body.bank = .globalVM
  elements : σ.machine.globalVM.arrayElements body = .ok (workerCode σ.machine.word terms)

variable {workers terms left id : Nat} {σ : Stage} {body : Object} {scheduler : Scheduler} {text : String}
  {turns : Nat → Nat} {code below : List Object} {Q : Scene → Prop}

namespace Setting

lemma calls (h : Setting workers terms σ body) (d : OperatorDef Builtin)
    (hfind : (builtinDefs.find? fun e => e.name == d.name) = some d) :
    σ.Calls (σ.machine.word d.name) (Machine.definitionOf d) := by
  obtain ⟨count, hready⟩ := h.ready
  exact Stage.calls_of_means (hready.means d.name d hfind)

lemma exec_three (h : Setting workers terms σ body) : 3 ≤ σ.machine.settings.execStackLimit :=
  Nat.le_of_succ_le h.exec

lemma zombie (h : Setting workers terms σ body) : σ.machine.Runs σ.machine.system.zombie ⟨[], 0, .zombie⟩ := by
  obtain ⟨count, hready⟩ := h.ready
  exact hready.zombie

lemma join (h : Setting workers terms σ body) :
    σ.machine.Runs σ.machine.system.join ⟨[.type .context], 0, .join⟩ := by
  obtain ⟨count, hready⟩ := h.ready
  exact hready.join

lemma segments (h : Setting workers terms σ body) : 0 < σ.machine.settings.segmentSize := by
  obtain ⟨count, hready⟩ := h.ready
  exact hready.segments

end Setting

/-! ## Turns of a worker -/

/-- **A round of a worker** adds the next term. -/
lemma switches_round (h : Setting workers terms σ body) (hleft : left + 1 < terms)
    (hQ : Q ⟨.running id (workerOperands terms left) code, scheduler, text⟩) :
    Switches σ 4 ⟨.running id (workerOperands terms (left + 1)) (round σ.machine.word ++ code), scheduler, text⟩
      Q := by
  have hlimit := h.limit
  have htotal : total (left + 1) ≤ total terms := total_mono (Nat.le_of_lt hleft)
  have hsucc := total_succ left
  have hsmall := h.sum
  have hadd : Leads σ 2
      ⟨.running id (workerOperands terms (left + 1)) (round σ.machine.word ++ code), scheduler, text⟩
      ⟨.running id (workerOperands terms left) (σ.machine.word "yield" :: code), scheduler, text⟩ := by
    have hroom : (numbers left).length < σ.machine.settings.operandStackLimit := by
      rw [length_numbers]
      omega
    have hrest : left + 1 + (total terms - total (left + 1)) = total terms - total left := by omega
    have hrun := Scene.leads_call
      (v := ⟨.running id (workerOperands terms (left + 1)) (round σ.machine.word ++ code), scheduler, text⟩)
      h.exec_three rfl rfl rfl
      (h.calls ⟨"add", .intAdd, 1, [.type .integer, .type .integer]⟩ rfl)
      (numbers left) [Object.int (left + 1 : Nat), Object.int (total terms - total (left + 1) : Nat)]
      ⟨rfl, rfl, hroom⟩ (by rw [Portrait.running, workerOperands, numbers_succ, List.append_assoc]; rfl)
      (Scene.does_add (by omega) hroom) rfl
    rw [hrest] at hrun
    exact hrun
  have hroom : (workerOperands terms left).length ≤ σ.machine.settings.operandStackLimit := by
    rw [workerOperands, List.length_append, length_numbers, List.length_singleton]
    omega
  exact hadd.switches (Scene.switches_call h.exec_three rfl rfl rfl
    (h.calls ⟨"yield", .yield, 0, []⟩ rfl)
    (workerOperands terms left) [] ⟨rfl, rfl, hroom⟩ (List.append_nil _).symm
    (Scene.yields_yield ⟨rfl, hQ⟩))

/-! ## Turns of the root -/

/-- What the root receives of a worker is printed and removed. -/
lemma leads_receipt (h : Setting workers terms σ body)
    (hbelow : below.length + 2 ≤ σ.machine.settings.operandStackLimit) :
    Leads σ 4
      ⟨.running id (below ++ Object.mark :: workerOperands terms 0) (receiptCode σ.machine.word ++ code),
        scheduler, text⟩
      ⟨.running id below code, scheduler, text ++ line terms⟩ := by
  have hoperands : below ++ Object.mark :: workerOperands terms 0 =
      (below ++ [Object.mark]) ++ [Object.int (total terms : Nat)] := by
    rw [List.append_assoc]
    rfl
  have hmark : (below ++ [Object.mark]).length ≤ σ.machine.settings.operandStackLimit := by
    rw [List.length_append, List.length_singleton]
    omega
  have hprint : Leads σ 2
      ⟨.running id (below ++ Object.mark :: workerOperands terms 0) (receiptCode σ.machine.word ++ code),
        scheduler, text⟩
      ⟨.running id (below ++ [Object.mark]) (σ.machine.word "pop" :: code), scheduler, text ++ line terms⟩ :=
    Scene.leads_call h.exec_three rfl rfl rfl (h.calls ⟨"==", .print, 0, [.any]⟩ rfl)
      (below ++ [Object.mark]) [Object.int (total terms : Nat)]
      ⟨rfl, rfl, hmark⟩ hoperands (Scene.does_print h.sum) rfl
  have hpop : Leads σ 2
      ⟨.running id (below ++ [Object.mark]) (σ.machine.word "pop" :: code), scheduler, text ++ line terms⟩
      ⟨.running id below code, scheduler, text ++ line terms⟩ :=
    Scene.leads_call h.exec_three rfl rfl rfl (h.calls ⟨"pop", .pop, 0, [.any]⟩ rfl)
      below [Object.mark] ⟨rfl, rfl, Nat.le_of_add_right_le hbelow⟩ rfl (Scene.does_pure _) rfl
  exact hprint.trans hpop

/-- Numbers in a procedure are pushed. -/
lemma leads_numbers (h : Setting workers terms σ body)
    (hroom : below.length + terms ≤ σ.machine.settings.operandStackLimit) :
    Leads σ terms ⟨.running id below (numbers terms ++ code), scheduler, text⟩
      ⟨.running id (below ++ numbers terms) code, scheduler, text⟩ := by
  have hall {n : Nat} (hn : n ≤ terms) : Leads σ n
      ⟨.running id below (numbers n ++ code), scheduler, text⟩
      ⟨.running id (below ++ numbers n) code, scheduler, text⟩ := by
    induction n generalizing code with
    | zero =>
        rw [numbers, List.range_zero, List.map_nil, List.append_nil]
        exact .refl σ _
    | succ n ih =>
        rw [numbers_succ, List.append_assoc, ← List.append_assoc below]
        refine (ih (by omega)).trans (Scene.leads_data h.exec_three rfl rfl rfl ?_)
        show (below ++ numbers n).length < _
        rw [List.length_append, length_numbers]
        omega
  exact hall (Nat.le_refl terms)

lemma length_handles (workers : Nat) : (handles workers).length = workers := by
  rw [handles, List.length_map, List.length_range]

lemma handles_succ (workers : Nat) :
    handles (workers + 1) = handles workers ++ [Object.context (workers + 2)] := by
  rw [handles, List.range_succ, List.map_append]
  rfl

/-- A worker that has just been forked has all turns to go. -/
lemma worker_new (word : String → Object) (hpos : 0 < terms) (id : Nat) :
    worker word terms id terms = .running id (numbers terms) (workerCode word terms) := by
  obtain ⟨rest, rfl⟩ : ∃ rest, terms = rest + 1 := ⟨terms - 1, by omega⟩
  have hlast : total (rest + 1) - total rest = rest + 1 := by rw [total_succ, Nat.add_sub_cancel_left]
  rw [worker, workerOperands, hlast, ← numbers_succ, workerCode, Nat.add_sub_cancel]

/-- A new worker joins the cast. -/
lemma shows_adopted (hpos : 0 < terms) (hleft : left < workers) (hturns : turns (workers - (left + 1)) = terms)
    (hshows : scheduler.Shows σ (play σ workers terms body ⟨.forking (left + 1), turns⟩) 1) {child : Context}
    (hchild : (Portrait.running scheduler.nextId (numbers terms)
      (workerCode σ.machine.word terms)).Depicts σ child) :
    (scheduler.allocateId.2.adopt child).Shows σ (play σ workers terms body ⟨.forking left, turns⟩) 1 := by
  have hnext : scheduler.nextId = workers - (left + 1) + 2 := hshows.nextId
  have hid : child.id = workers - (left + 1) + 2 := hchild.id.trans hnext
  refine ⟨?_, fun id hne => ?_⟩
  · show scheduler.nextId + 1 = workers - left + 2
    omega
  · rw [Scheduler.find?_adopt, hid]
    by_cases hown : id = workers - (left + 1) + 2
    · have hstate : child.state = .run := hchild.state
      have hemploys : (Phase.forking left).Employs workers (workers - (left + 1)) :=
        ⟨Nat.zero_le _, show _ < workers - left by omega⟩
      have hcast : (play σ workers terms body ⟨.forking left, turns⟩).cast (workers - (left + 1) + 2) =
          some (worker σ.machine.word terms (workers - (left + 1) + 2) terms) :=
        (cast_of_employs hemploys).trans (congrArg (fun n => some (worker _ _ _ n)) hturns)
      rw [if_pos hown, hown, hcast, worker_new _ hpos, ← hnext, Option.filter_some, if_pos (by simp [hstate])]
      exact .some hchild
    · have hcast : (play σ workers terms body ⟨.forking left, turns⟩).cast id =
          (play σ workers terms body ⟨.forking (left + 1), turns⟩).cast id := by
        refine cast_congr hne fun j hj => ⟨?_, fun _ => rfl⟩
        show 0 ≤ j ∧ j < workers - left ↔ 0 ≤ j ∧ j < workers - (left + 1)
        omega
      rw [if_neg hown, hcast]
      exact hshows.cast id hne

/-- **A turn in which the root forks a worker.** -/
lemma switches_fork (h : Setting workers terms σ body) (hleft : left < workers)
    (hturns : turns (workers - (left + 1)) = terms)
    (hshows : scheduler.Shows σ (play σ workers terms body ⟨.forking (left + 1), turns⟩) 1) :
    Switches σ (terms + 5) ⟨root σ workers terms body (.forking (left + 1)), scheduler, lines terms 0⟩
      (Scene.Shows σ (play σ workers terms body ⟨.forking left, turns⟩)) := by
  have hlimit := h.limit
  have hhandles := length_handles (workers - (left + 1))
  let rest := repeated left (forkCode σ.machine.word terms body) ++ closing σ.machine.word workers
  have hcode : repeated (left + 1) (forkCode σ.machine.word terms body) ++ closing σ.machine.word workers =
      σ.machine.word "mark" :: (numbers terms ++ body :: σ.machine.word "fork" :: rest) := by
    simp [repeated_succ, forkCode, rest]
  have hmark : Leads σ 2 ⟨root σ workers terms body (.forking (left + 1)), scheduler, lines terms 0⟩
      ⟨.running 1 (handles (workers - (left + 1)) ++ [Object.mark])
        (numbers terms ++ body :: σ.machine.word "fork" :: rest), scheduler, lines terms 0⟩ := by
    rw [root, hcode]
    have hroom : (handles (workers - (left + 1))).length < σ.machine.settings.operandStackLimit := by omega
    exact Scene.leads_call h.exec_three rfl rfl rfl (h.calls ⟨"mark", .mark, 1, []⟩ rfl)
      (handles (workers - (left + 1))) [] ⟨rfl, rfl, hroom⟩ (List.append_nil _).symm
      (Scene.does_push _ hroom) rfl
  have hpushed : Leads σ (terms + 1)
      ⟨.running 1 (handles (workers - (left + 1)) ++ [Object.mark])
        (numbers terms ++ body :: σ.machine.word "fork" :: rest), scheduler, lines terms 0⟩
      ⟨.running 1 (handles (workers - (left + 1)) ++ Object.mark :: numbers terms ++ [body])
        (σ.machine.word "fork" :: rest), scheduler, lines terms 0⟩ := by
    have hmarked : (handles (workers - (left + 1)) ++ [Object.mark]).length + terms ≤
        σ.machine.settings.operandStackLimit := by
      rw [List.length_append, List.length_singleton]
      omega
    have hnumbers : Leads σ terms
        ⟨.running 1 (handles (workers - (left + 1)) ++ [Object.mark])
          (numbers terms ++ body :: σ.machine.word "fork" :: rest), scheduler, lines terms 0⟩
        ⟨.running 1 (handles (workers - (left + 1)) ++ [Object.mark] ++ numbers terms)
          (body :: σ.machine.word "fork" :: rest), scheduler, lines terms 0⟩ := leads_numbers h hmarked
    rw [List.append_assoc] at hnumbers
    refine hnumbers.trans (Scene.leads_data h.exec_three rfl rfl (by simp [Object.isData, h.isProc]) ?_)
    show (handles (workers - (left + 1)) ++ Object.mark :: numbers terms).length < _
    rw [List.length_append, List.length_cons, length_numbers]
    omega
  have hfork : Switches σ 2
      ⟨.running 1 (handles (workers - (left + 1)) ++ Object.mark :: numbers terms ++ [body])
        (σ.machine.word "fork" :: rest), scheduler, lines terms 0⟩
      (Scene.Shows σ (play σ workers terms body ⟨.forking left, turns⟩)) := by
    have hroom : (handles (workers - (left + 1)) ++ Object.mark :: numbers terms).length + 1 ≤
        σ.machine.settings.operandStackLimit := by
      rw [List.length_append, List.length_cons, length_numbers]
      omega
    refine Scene.switches_call h.exec_three rfl rfl rfl
      (h.calls ⟨"fork", .fork, 1, [.proc]⟩ rfl)
      (handles (workers - (left + 1)) ++ Object.mark :: numbers terms) [body]
      ⟨rfl, by simp [Machine.definitionOf, Pattern.accepts, h.isProc], hroom⟩ rfl
      (Scene.yields_fork h.memory h.segments (by have := h.exec; omega) h.isProc h.bank h.elements rfl
        (fun obj hobj => ?_) fun child hchild => ⟨rfl, ?_⟩)
    · obtain ⟨i, -, rfl⟩ := List.mem_map.mp hobj
      exact ⟨.inl rfl, by rintro ⟨⟩⟩
    · have hnext : scheduler.nextId = workers - (left + 1) + 2 := hshows.nextId
      refine ⟨?_, (by rintro ⟨⟩), rfl, shows_adopted h.terms_pos hleft hturns hshows hchild⟩
      show some (root σ workers terms body (.forking left)) = _
      rw [root, show workers - left = workers - (left + 1) + 1 by omega, handles_succ, ← hnext]
      rfl
  exact ((hmark.trans hpushed).switches hfork).mono (by omega) fun _ hv => hv

/-- A worker leaves the cast. -/
lemma shows_released (hleft : left < workers)
    (hshows : scheduler.Shows σ (play σ workers terms body ⟨.joining (left + 1), turns⟩) 1) :
    (scheduler.update (workers - (left + 1) + 2) Context.released).Shows σ
      (play σ workers terms body ⟨.joining left, turns⟩) 1 := by
  refine ⟨hshows.nextId, fun id hne => ?_⟩
  rw [Scheduler.find?_update (f := Context.released) fun _ hid => hid]
  by_cases hown : id = workers - (left + 1) + 2
  · have hleaves : ¬ (Phase.joining left).Employs workers (workers - (left + 1)) :=
      fun hemploys => by have : workers - left ≤ _ := hemploys.1; omega
    rw [if_pos hown, hown, cast_of_not_employs hleaves]
    cases scheduler.find? (workers - (left + 1) + 2) with
    | none => exact .none
    | some c => exact .none
  · have hcast : (play σ workers terms body ⟨.joining left, turns⟩).cast id =
        (play σ workers terms body ⟨.joining (left + 1), turns⟩).cast id := by
      refine cast_congr hne fun j hj => ⟨?_, fun _ => rfl⟩
      show workers - left ≤ j ∧ j < workers ↔ workers - (left + 1) ≤ j ∧ j < workers
      omega
    rw [if_neg hown, hcast]
    exact hshows.cast id hne

/-- The first worker that is still to be joined. -/
lemma exists_worker (hleft : left < workers)
    (hshows : scheduler.Shows σ (play σ workers terms body ⟨.joining (left + 1), turns⟩) 1) :
    ∃ c, scheduler.find? (workers - (left + 1) + 2) = some c ∧
      (worker σ.machine.word terms (workers - (left + 1) + 2) (turns (workers - (left + 1)))).Depicts σ c := by
  have hemploys : (Phase.joining (left + 1)).Employs workers (workers - (left + 1)) :=
    ⟨Nat.le_refl _, show _ < workers by omega⟩
  have hrel := hshows.cast (workers - (left + 1) + 2) (by omega)
  rw [cast_of_employs hemploys] at hrel
  cases hfind : scheduler.find? (workers - (left + 1) + 2) with
  | none =>
      rw [hfind] at hrel
      cases hrel
  | some c =>
      rw [hfind, Option.filter_some] at hrel
      split_ifs at hrel
      · cases hrel with
        | some hdepicts => exact ⟨c, rfl, hdepicts⟩
      · cases hrel

/-- **A join with a worker that has ended** receives its operand. -/
lemma does_join_worker (h : Setting workers terms σ body) (hleft : left < workers)
    (hturns : turns (workers - (left + 1)) = 0)
    (hshows : scheduler.Shows σ (play σ workers terms body ⟨.joining (left + 1), turns⟩) 1) {obj : Object}
    (hcalls : σ.Calls obj ⟨[.type .context], 0, .join⟩) (waitingOn : Option Nat) (code : List Object)
    (text : String) : Does σ (Session.execute obj)
      ⟨{ Portrait.running 1 (handles workers ++ [Object.context (workers - (left + 1) + 2)]) code with waitingOn },
        scheduler, text⟩
      ⟨.running 1 (handles workers ++ Object.mark :: workerOperands terms 0) code,
        scheduler.update (workers - (left + 1) + 2) Context.released, text⟩ := by
  have hlimit := h.limit
  have hfew := h.few
  have hpos := h.terms_pos
  have hhandles := length_handles workers
  have hshared : ∀ obj ∈ workerOperands terms 0, obj.IsShared := by
    intro obj hobj
    obtain rfl : obj = Object.int (total terms - total 0 : Nat) := by simpa [workerOperands, numbers] using hobj
    exact .inl rfl
  obtain ⟨c, hfind, hworker⟩ := exists_worker hleft hshows
  rw [hturns] at hworker
  exact Scene.does_call hcalls (handles workers) [Object.context (workers - (left + 1) + 2)]
    ⟨rfl, rfl, by rw [hhandles]; show workers + 0 ≤ _; omega⟩ rfl rfl
    (Scene.does_join (by unfold wordBound; unfold Action.maxInteger at hfew; omega) hfind hworker.state
      hworker.operands.toList_eq hshared (by show (handles workers).length + 1 + 1 ≤ _; omega)) rfl

/-- The handle of the worker that is to be joined next is copied to the top. -/
lemma leads_handle (h : Setting workers terms σ body) (hleft : left < workers) (scheduler : Scheduler)
    (text : String) :
    Leads σ 3 ⟨.running 1 (handles workers) (closing σ.machine.word (left + 1)), scheduler, text⟩
      ⟨.running 1 (handles workers ++ [Object.context (workers - (left + 1) + 2)])
        (σ.machine.word "join" :: (receiptCode σ.machine.word ++ closing σ.machine.word left)),
        scheduler, text⟩ := by
  have hlimit := h.limit
  have hfew := h.few
  have hpos := h.terms_pos
  have hhandles := length_handles workers
  have hcode : closing σ.machine.word (left + 1) = Object.int left :: σ.machine.word "index" ::
      σ.machine.word "join" :: (receiptCode σ.machine.word ++ closing σ.machine.word left) := by
    simp [closing, joinsCode]
  have hpicked : (handles workers).reverse[left]? = some (Object.context (workers - (left + 1) + 2)) := by
    rw [List.getElem?_reverse (by omega), hhandles, show workers - 1 - left = workers - (left + 1) by omega,
      handles, List.getElem?_map, List.getElem?_range (by omega)]
    rfl
  rw [hcode]
  have hdepth := Scene.leads_data
    (v := ⟨.running 1 (handles workers) (Object.int left :: σ.machine.word "index" ::
      σ.machine.word "join" :: (receiptCode σ.machine.word ++ closing σ.machine.word left)), scheduler, text⟩)
    h.exec_three rfl rfl rfl (show (handles workers).length < _ by omega)
  refine hdepth.trans (Scene.leads_call h.exec_three rfl rfl rfl
    (h.calls ⟨"index", .index, 1, [.type .integer]⟩ rfl)
    (handles workers) [Object.int left]
    ⟨rfl, rfl, by rw [hhandles]; show workers + 1 ≤ _; omega⟩ rfl
    (Scene.does_index (by omega) hpicked ?_) rfl)
  show (handles workers).length < _
  omega

/-- **The last turn of the root.** -/
lemma switches_status (h : Setting workers terms σ body)
    (hshows : scheduler.Shows σ (play σ workers terms body ⟨.joining 0, turns⟩) 1) :
    Switches σ 4 ⟨.running 1 (handles workers) (closing σ.machine.word 0), scheduler, lines terms workers⟩
      (Scene.Shows σ (play σ workers terms body ⟨.joining 0, turns⟩)) := by
  have hlimit := h.limit
  have hpos := h.terms_pos
  have hhandles := length_handles workers
  have hstatus : Leads σ 2
      ⟨.running 1 (handles workers) (closing σ.machine.word 0), scheduler, lines terms workers⟩
      ⟨.running 1 (handles workers ++ status σ.localVM) [], scheduler, lines terms workers⟩ :=
    Scene.leads_call h.exec_three rfl rfl rfl
      (h.calls ⟨"vmstatus", .vmStatus, 3, []⟩ rfl)
      (handles workers) [] ⟨rfl, rfl, by rw [hhandles]; show workers + 3 ≤ _; omega⟩
      (List.append_nil _).symm (Scene.does_vmStatus (by show (handles workers).length + 3 ≤ _; omega)) rfl
  exact hstatus.switches (Scene.switches_end h.zombie rfl rfl rfl ⟨rfl, nofun, rfl, hshows⟩)

/-- The sum of the worker that has been joined is printed. -/
lemma leads_line (h : Setting workers terms σ body) (hleft : left < workers) :
    Leads σ 4
      ⟨.running 1 (handles workers ++ Object.mark :: workerOperands terms 0)
        (receiptCode σ.machine.word ++ code), scheduler, lines terms (workers - (left + 1))⟩
      ⟨.running 1 (handles workers) code, scheduler, lines terms (workers - left)⟩ := by
  have hlimit := h.limit
  have hpos := h.terms_pos
  rw [show workers - left = workers - (left + 1) + 1 by omega, lines_succ]
  exact leads_receipt h (by rw [length_handles]; omega)

/-- What comes of a join that is next in the procedure. -/
lemma leads_joined (h : Setting workers terms σ body) (hleft : left < workers)
    (hturns : turns (workers - (left + 1)) = 0)
    (hshows : scheduler.Shows σ (play σ workers terms body ⟨.joining (left + 1), turns⟩) 1) :
    Leads σ 6
      ⟨.running 1 (handles workers ++ [Object.context (workers - (left + 1) + 2)])
        (σ.machine.word "join" :: (receiptCode σ.machine.word ++ code)), scheduler,
        lines terms (workers - (left + 1))⟩
      ⟨.running 1 (handles workers) code, scheduler.update (workers - (left + 1) + 2) Context.released,
        lines terms (workers - left)⟩ := by
  have hjoin := h.calls ⟨"join", .join, 0, [.type .context]⟩ rfl
  have hexecute := does_join_worker h hleft hturns hshows hjoin none (receiptCode σ.machine.word ++ code)
    (lines terms (workers - (left + 1)))
  have hjoined := Scene.leads_word
    (v := ⟨.running 1 (handles workers ++ [Object.context (workers - (left + 1) + 2)])
      (σ.machine.word "join" :: (receiptCode σ.machine.word ++ code)), scheduler,
      lines terms (workers - (left + 1))⟩)
    h.exec_three rfl rfl hjoin.1 hexecute
  exact hjoined.trans (leads_line h hleft)

/-- **A join with a worker that has not ended** puts the root aside. -/
lemma switches_waiting (h : Setting workers terms σ body) (hleft : left < workers)
    (hturns : turns (workers - (left + 1)) ≠ 0)
    (hshows : scheduler.Shows σ (play σ workers terms body ⟨.joining (left + 1), turns⟩) 1) :
    Switches σ 2
      ⟨.running 1 (handles workers ++ [Object.context (workers - (left + 1) + 2)])
        (σ.machine.word "join" :: (receiptCode σ.machine.word ++ closing σ.machine.word left)), scheduler,
        lines terms (workers - (left + 1))⟩
      (Scene.Shows σ (play σ workers terms body ⟨.joining (left + 1), turns⟩)) := by
  have hlimit := h.limit
  have hfew := h.few
  have hhandles := length_handles workers
  obtain ⟨c, hfind, hworker⟩ := exists_worker hleft hshows
  obtain ⟨rest, hrest⟩ := Nat.exists_eq_succ_of_ne_zero hturns
  rw [hrest] at hworker
  have hactive : c.state.isActive = true := by rw [hworker.state]; rfl
  exact Scene.switches_call h.exec_three rfl rfl rfl
    (h.calls ⟨"join", .join, 0, [.type .context]⟩ rfl)
    (handles workers) [Object.context (workers - (left + 1) + 2)]
    ⟨rfl, rfl, by rw [hhandles]; show workers + 0 ≤ _; omega⟩ rfl
    (Scene.yields_join (by unfold wordBound; unfold Action.maxInteger at hfew; omega) hfind hactive rfl rfl
      h.exec ⟨rfl, rfl, nofun, rfl, hshows⟩)

/-- **A turn in which the root joins** the workers that have ended, up to the first one that has not. -/
lemma switches_joins (h : Setting workers terms σ body) (hleft : left ≤ workers)
    (hshows : scheduler.Shows σ (play σ workers terms body ⟨.joining left, turns⟩) 1) :
    Switches σ (9 * left + 4)
      ⟨.running 1 (handles workers) (closing σ.machine.word left), scheduler, lines terms (workers - left)⟩
      fun v => ∃ rest ≤ left, v.Shows σ (play σ workers terms body ⟨.joining rest, turns⟩) := by
  induction left generalizing scheduler with
  | zero => exact (switches_status h hshows).mono (Nat.le_refl 4) fun v hv => ⟨0, Nat.le_refl 0, hv⟩
  | succ left ih =>
      have hhandle := leads_handle h hleft scheduler (lines terms (workers - (left + 1)))
      by_cases hended : turns (workers - (left + 1)) = 0
      · refine ((hhandle.trans (leads_joined h hleft hended hshows)).switches
          (ih (by omega) (shows_released hleft hshows))).mono (by omega) ?_
        rintro v ⟨rest, hrest, hv⟩
        exact ⟨rest, Nat.le_succ_of_le hrest, hv⟩
      · exact (hhandle.switches (switches_waiting h hleft hended hshows)).mono (by omega)
          fun v hv => ⟨left + 1, Nat.le_refl _, hv⟩

/-- **A turn in which the root goes on** when the worker that it waited for has ended. -/
lemma switches_resumed (h : Setting workers terms σ body) (hleft : left < workers)
    (hturns : turns (workers - (left + 1)) = 0)
    (hshows : scheduler.Shows σ (play σ workers terms body ⟨.joining (left + 1), turns⟩) 1) :
    Switches σ (9 * left + 10)
      ⟨{ root σ workers terms body (.joining (left + 1)) with state := .run }, scheduler,
        lines terms (workers - (left + 1))⟩
      fun v => ∃ rest ≤ left, v.Shows σ (play σ workers terms body ⟨.joining rest, turns⟩) := by
  have hlimit := h.limit
  have hfew := h.few
  have hpos := h.terms_pos
  have hhandles := length_handles workers
  have hword : workers - (left + 1) + 2 < wordBound := by
    unfold wordBound
    unfold Action.maxInteger at hfew
    omega
  let v : Scene := ⟨{ root σ workers terms body (.joining (left + 1)) with state := .run }, scheduler,
    lines terms (workers - (left + 1))⟩
  have hhandle : Leads σ 1 v { v with
      operands := handles workers ++ [Object.context (workers - (left + 1) + 2)]
      retry := [Object.operator σ.machine.system.join] } := by
    refine Scene.leads_retry rfl [Object.operator σ.machine.system.join] rfl fun s hs => ?_
    rw [Session.execute_handle (Scene.asContext?_context hword)]
    exact Scene.does_push _ (show (handles workers).length < _ by omega) s hs
  have hjoin : Leads σ 1
      { v with
        operands := handles workers ++ [Object.context (workers - (left + 1) + 2)]
        retry := [Object.operator σ.machine.system.join] }
      ⟨.running 1 (handles workers ++ Object.mark :: workerOperands terms 0)
        (receiptCode σ.machine.word ++ closing σ.machine.word left),
        scheduler.update (workers - (left + 1) + 2) Context.released, lines terms (workers - (left + 1))⟩ :=
    Scene.leads_retry rfl [] rfl
      (does_join_worker h hleft hturns hshows (Stage.calls_of_runs h.join) _ _ _)
  exact ((hhandle.trans hjoin).trans (leads_line h hleft)).switches
    (switches_joins h (Nat.le_of_lt hleft) (shows_released hleft hshows)) |>.mono (by omega) fun _ hv => hv

end PostScriptCore.Demo
