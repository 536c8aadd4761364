import PostScriptCore.Demo.Program
import PostScriptCore.Proofs.Machine.Vocabulary

/-!
# Building the demonstration

The root's procedure holds the workers' procedure, so both are stored in the global memory, one after the
other.  The second allocation may collect, and the first procedure is reported as a root.

* `Demo.workerCode`, `Demo.rootCode` — the elements of the two procedures.
* `Demo.Built` — a machine with both procedures on it.
* `Demo.built_of_program` — what building the program leaves.
* `Demo.exists_program` — it succeeds if there is room.
-/

namespace PostScriptCore.Demo

open Memory (newProc Offers)

variable {m built : Machine Builtin} {workers terms count : Nat} {body program : Object}

/-! ## The elements -/

/-- The terms of the sum. -/
def numbers (terms : Nat) : List Object := (List.range terms).map fun i : Nat => Object.int (i + 1 : Nat)

/-- What a worker does for each term but the first. -/
def round (word : String → Object) : List Object := [word "add", word "yield"]

/-- A worker's procedure. -/
def workerCode (word : String → Object) (terms : Nat) : List Object := repeated (terms - 1) (round word)

/-- Forking a worker. -/
def forkCode (word : String → Object) (terms : Nat) (body : Object) : List Object :=
  word "mark" :: (numbers terms ++ [body, word "fork"])

/-- What the root does with the operands of a worker. -/
def receiptCode (word : String → Object) : List Object := [word "==", word "pop"]

/-- Joining the workers whose handles are at the depths below a number, the deepest first. -/
def joinsCode (word : String → Object) : Nat → List Object
  | 0 => []
  | left + 1 => Object.int left :: word "index" :: word "join" :: (receiptCode word ++ joinsCode word left)

/-- What is left for the root when the workers are forked. -/
def closing (word : String → Object) (left : Nat) : List Object := joinsCode word left ++ [word "vmstatus"]

/-- The root's procedure. -/
def rootCode (word : String → Object) (workers terms : Nat) (body : Object) : List Object :=
  repeated workers (forkCode word terms body) ++ closing word workers

lemma repeated_succ {α : Type} (n : Nat) (items : List α) :
    repeated (n + 1) items = items ++ repeated n items := by
  rw [repeated, List.replicate_succ, List.flatten_cons]
  rfl

lemma length_repeated {α : Type} (n : Nat) (items : List α) : (repeated n items).length = n * items.length := by
  induction n with
  | zero => rw [Nat.zero_mul]; rfl
  | succ n ih => rw [repeated_succ, List.length_append, ih, Nat.succ_mul, Nat.add_comm]

lemma length_numbers (terms : Nat) : (numbers terms).length = terms := by
  rw [numbers, List.length_map, List.length_range]

lemma length_workerCode (word : String → Object) (terms : Nat) :
    (workerCode word terms).length = (terms - 1) * 2 := length_repeated _ _

lemma length_rootCode (word : String → Object) (workers terms : Nat) (body : Object) :
    (rootCode word workers terms body).length = workers * (terms + 8) + 1 := by
  have hjoins (left : Nat) : (joinsCode word left).length = left * 5 := by
    induction left with
    | zero => rfl
    | succ left ih => simp only [joinsCode, receiptCode, List.cons_append, List.nil_append,
        List.length_cons, ih]; omega
  rw [rootCode, closing, List.length_append, List.length_append, length_repeated, hjoins, forkCode,
    List.length_cons, List.length_append, length_numbers]
  simp only [List.length_cons, List.length_nil, Nat.mul_add]
  omega

/-- The joins are written with the handles counted from the last worker's. -/
lemma flatMap_joins (word : String → Object) (workers : Nat) :
    ((List.range workers).flatMap fun k : Nat => Object.int (workers - 1 - k : Nat) ::
      ["index", "join", "==", "pop"].map word) = joinsCode word workers := by
  induction workers with
  | zero => rfl
  | succ left ih =>
      rw [List.range_succ_eq_map, List.flatMap_cons, List.flatMap_map, joinsCode, ← ih]
      have hdepth (k : Nat) : left + 1 - 1 - k.succ = left - 1 - k := by omega
      simp only [hdepth]
      rfl

/-! ## Building -/

/-- Texts that the machine knows already are interned without a change. -/
lemma wordsOf_run {texts : List String} (h : ∀ text ∈ texts, ∃ name, m.names.lookup? text = some name) :
    wordsOf texts m = .ok (texts.map m.word) m := by
  induction texts with
  | nil => rfl
  | cons text rest ih =>
      obtain ⟨name, hname⟩ := h text List.mem_cons_self
      have hintern : Machine.intern text m = .ok name m := by
        show EStateM.Result.ok (m.names.intern text).1 { m with names := (m.names.intern text).2 } = _
        rw [Names.intern, hname]
      have hrest := ih fun text htext => h text (List.mem_cons_of_mem _ htext)
      refine (bind_ok hintern).trans ((bind_ok hrest).trans ?_)
      rw [List.map_cons, Machine.word, hname, Option.getD_some]
      rfl

/-- **Building the program** stores two procedures. -/
lemma program_run (h : m.Ready count) (workers terms : Nat) :
    Demo.program workers terms m = (do
      let body ← Machine.onGlobalVM (newProc (workerCode m.word terms) [])
      Machine.onGlobalVM (newProc (rootCode m.word workers terms body) [body])) m := by
  have hwords {texts : List String}
      (htexts : ∀ text ∈ texts, (builtinDefs.find? fun d => d.name == text).isSome = true) (k : Memory) :
      wordsOf texts { m with globalVM := k } = .ok (texts.map m.word) { m with globalVM := k } := by
    refine wordsOf_run fun text htext => ?_
    obtain ⟨d, hd⟩ := Option.isSome_iff_exists.mp (htexts text htext)
    exact h.interned text d hd
  have hbody : workerBody terms m = Machine.onGlobalVM (newProc (workerCode m.word terms) []) m :=
    bind_ok (hwords (by decide) m.globalVM)
  rw [Demo.program]
  cases hrun : Machine.onGlobalVM (newProc (workerCode m.word terms) []) m with
  | error fault n => exact (bind_error (hbody.trans hrun)).trans (bind_error hrun).symm
  | ok body n =>
      obtain ⟨k, rfl⟩ : ∃ k, n = { m with globalVM := k } := by
        have hends : Ends (Machine.onGlobalVM (newProc (workerCode m.word terms) [])) m
            (fun _ n => ∃ k, n = { m with globalVM := k }) fun _ _ => True :=
          Ends.focus (Ends.always (fun _ k => ⟨k, rfl⟩) fun _ _ => trivial)
        rwa [Ends, hrun] at hends
      refine (bind_ok (hbody.trans hrun)).trans (Eq.trans ?_ (bind_ok hrun).symm)
      refine (bind_ok (hwords (by decide) k)).trans ((bind_ok (hwords (by decide) k)).trans
        ((bind_ok (hwords (by decide) k)).trans ((bind_ok (hwords (by decide) k)).trans ?_)))
      have hcode : repeated workers (["mark"].map m.word ++ numbers terms ++ [body] ++ ["fork"].map m.word) ++
          ((List.range workers).flatMap fun k : Nat => Object.int (workers - 1 - k : Nat) ::
            ["index", "join", "==", "pop"].map m.word) ++ ["vmstatus"].map m.word =
          rootCode m.word workers terms body := by
        rw [flatMap_joins, rootCode, closing, List.append_assoc]
        simp [forkCode]
      exact congrArg (fun code => Machine.onGlobalVM (newProc code [body]) { m with globalVM := k }) hcode

/-- The two procedures are on the machine, which is as ready as before. -/
structure Built (workers terms count : Nat) (m : Machine Builtin) (body program : Object)
    (built : Machine Builtin) : Prop where
  ready : built.Ready (count + 2)
  settings : built.settings = m.settings
  body_isProc : body.isProc = true
  body_bank : body.bank = .globalVM
  body_elements : built.globalVM.arrayElements body = .ok (workerCode built.word terms)
  isProc : program.isProc = true
  bank : program.bank = .globalVM
  elements : built.globalVM.arrayElements program = .ok (rootCode built.word workers terms body)
  words : (rootCode built.word workers terms body).length * objectSize < wordBound

/-- Two procedures, stored one after the other. -/
lemma built_of_stored (h : m.Ready count) (hcount : count + 1 < wordBound) {k n : Memory}
    (hbody : newProc (workerCode m.word terms) [] m.globalVM = .ok body k)
    (hroot : newProc (rootCode m.word workers terms body) [body] k = .ok program n) :
    Built workers terms count m body program { m with globalVM := n } := by
  obtain ⟨hready, hfirst⟩ := h.stored (by omega) hbody
  obtain ⟨hready', hsecond⟩ := hready.stored hcount hroot
  exact
    { ready := hready'
      settings := rfl
      body_isProc := hfirst.isProc
      body_bank := hfirst.bank_eq
      body_elements := hfirst.elements_kept hsecond List.mem_cons_self
      isProc := hsecond.isProc
      bank := hsecond.bank_eq
      elements := hsecond.elements
      words := hsecond.words }

/-- **A program that was built** is on the machine. -/
theorem built_of_program (h : m.Ready count) (hcount : count + 1 < wordBound)
    (hrun : Demo.program workers terms m = .ok program built) :
    ∃ body, Built workers terms count m body program built := by
  rw [program_run h] at hrun
  cases hbody : newProc (workerCode m.word terms) [] m.globalVM with
  | error fault k =>
      rw [bind_error (by simp only [Machine.onGlobalVM, focus, hbody]; rfl)] at hrun
      contradiction
  | ok body k =>
      rw [bind_ok (by simp only [Machine.onGlobalVM, focus, hbody]; rfl)] at hrun
      cases hroot : newProc (rootCode m.word workers terms body) [body] k with
      | error fault n =>
          simp only [Machine.onGlobalVM, focus, hroot] at hrun
          contradiction
      | ok p n =>
          simp only [Machine.onGlobalVM, focus, hroot] at hrun
          cases hrun
          exact ⟨body, built_of_stored h hcount hbody hroot⟩

/-- The bytes that the two procedures take, at most. -/
def cost (workers terms : Nat) : Nat := ((terms - 1) * 2 + workers * (terms + 8) + 1) * objectSize + 14

/-- **The program can be built** if there is room for it. -/
theorem exists_program (h : m.Ready count) (hcount : count + 1 < wordBound)
    (hwords : cost workers terms < wordBound) (hroom : m.globalVM.Offers (cost workers terms) 2) :
    ∃ program built, Demo.program workers terms m = .ok program built := by
  have hobject : objectSize = 16 := rfl
  rw [cost, hobject] at hwords hroom
  have hcode : (workerCode m.word terms).length * objectSize = (terms - 1) * 2 * 16 := by
    rw [length_workerCode]
  obtain ⟨body, k, hbody, hspends, -⟩ := (Memory.affords_newProc h.threaded h.inOrder
    (Nat.lt_of_le_of_lt h.entities (by omega)) (workerCode m.word terms) [] (by omega)
    (hroom.mono (by omega) (by omega))).exists_ok
  have hcode' : (rootCode m.word workers terms body).length * objectSize = (workers * (terms + 8) + 1) * 16 := by
    rw [length_rootCode]
  obtain ⟨hready, -⟩ := h.stored (by omega) hbody
  have hroom' : k.Offers ((rootCode m.word workers terms body).length * objectSize + 7) 1 := by
    refine Offers.spend (hroom.mono ?_ (by omega)) hspends
    omega
  obtain ⟨program, n, hroot, -, -⟩ := (Memory.affords_newProc hready.threaded hready.inOrder
    (Nat.lt_of_le_of_lt hready.entities (by omega)) (rootCode m.word workers terms body) [body] (by omega)
    hroom').exists_ok
  refine ⟨program, { m with globalVM := n }, ?_⟩
  rw [program_run h]
  refine (bind_ok (t := { m with globalVM := k }) (a := body) ?_).trans ?_
  · simp only [Machine.onGlobalVM, focus, hbody]
  · simp only [Machine.onGlobalVM, focus, hroot]

end PostScriptCore.Demo
