import PostScriptCore.Proofs.Machine.Contexts

/-!
# Runs, seen from outside

A play is to a world what a scene is to a session: which contexts there are, which number comes next and what
has been printed.  In which order the scheduler gives turns does not matter for a play, as long as each turn
brings it closer to its end.

* `Play`, `World.Shows`, `Scene.Shows` — worlds, and sessions at the end of a turn, that a play describes.
* `World.Shows.opens`, `Scene.Shows.endTurn` — the beginning and the end of a turn.
* `Script`, `Script.run` — a run that comes to an end, whoever is given the turns.
-/

namespace PostScriptCore

/-- A world without the details. -/
structure Play where
  cast : Nat → Option Portrait
  nextId : Nat
  text : String

/-- The context with the number may be given the next turn. -/
def Play.CanGoOn (p : Play) (id : Nat) : Prop :=
  ∃ q, p.cast id = some q ∧ (q.state = .run ∨ q.state = .wait ∧
    ∀ target r, q.waitingOn = some target → p.cast target = some r → r.state.isActive = false)

/-- Nobody has anything left to do. -/
def Play.IsOver (p : Play) : Prop := ∀ id q, p.cast id = some q → q.state.isActive = false

/-- While one context is running, the others are those of the play, once the free ones are forgotten. -/
structure Scheduler.Shows (σ : Stage) (p : Play) (own : Nat) (s : Scheduler) : Prop where
  nextId : s.nextId = p.nextId
  cast : ∀ id, id ≠ own →
    Option.Rel (Portrait.Depicts σ) (p.cast id) ((s.find? id).filter fun c => c.state != .free)

/-- The world is the one that the play describes. -/
structure World.Shows (σ : Stage) (p : Play) (w : World Builtin) : Prop where
  machine : w.toMachine = σ.machine
  output : w.output = ⟨p.text, true⟩
  orderly : w.scheduler.Orderly
  nextId : w.scheduler.nextId = p.nextId
  cast : ∀ id, Option.Rel (Portrait.Depicts σ) (p.cast id) (w.scheduler.find? id)

/-- When the turn ends like this, the world is the one that the play describes. -/
structure Scene.Shows (σ : Stage) (p : Play) (v : Scene) : Prop where
  own : p.cast v.id = some v.toPortrait
  state : v.state ≠ .free
  text : v.text = p.text
  others : v.scheduler.Shows σ p v.id

variable {σ : Stage} {p : Play} {v : Scene} {w : World Builtin} {s : Session Builtin} {id : Nat}

/-! ## Turns -/

namespace World

lemma output_of_nextSession? (hnext : w.nextSession? = some s) : s.output = w.output := by
  rw [nextSession?] at hnext
  split at hnext
  · obtain ⟨taken, -, rfl⟩ := Option.map_eq_some_iff.mp hnext
    rfl
  · contradiction

/-- If somebody in the queue can go on, there is a next turn. -/
lemma nextSession?_ne_none {skipped rest : List Nat} (hqueue : w.scheduler.queue = skipped ++ id :: rest)
    (hgo : w.scheduler.CanGoOn id) (hskipped : ∀ other ∈ skipped, w.scheduler.IsStuck other) :
    w.nextSession? ≠ none := by
  have ⟨c, hfind, _⟩ := hgo
  have htake := Scheduler.take?_eq_some (s := { w.scheduler with queue := rest ++ skipped }) hfind
  rw [nextSession?, Scheduler.nextRunnable_of_canGoOn hqueue hgo hskipped]
  dsimp only at htake ⊢
  rw [htake]
  exact Option.some_ne_none _

end World

namespace World.Shows

lemma find?_of_cast (h : w.Shows σ p) {q : Portrait} (hcast : p.cast id = some q) :
    ∃ c, w.scheduler.find? id = some c ∧ q.Depicts σ c := by
  have hrel := h.cast id
  rw [hcast] at hrel
  cases hfind : w.scheduler.find? id with
  | none =>
      rw [hfind] at hrel
      cases hrel
  | some c =>
      rw [hfind] at hrel
      cases hrel with
      | some hdepicts => exact ⟨c, rfl, hdepicts⟩

lemma cast_of_find? (h : w.Shows σ p) {c : Context} (hfind : w.scheduler.find? id = some c) :
    ∃ q, p.cast id = some q ∧ q.Depicts σ c := by
  have hrel := h.cast id
  rw [hfind] at hrel
  cases hcast : p.cast id with
  | none =>
      rw [hcast] at hrel
      cases hrel
  | some q =>
      rw [hcast] at hrel
      cases hrel with
      | some hdepicts => exact ⟨q, rfl, hdepicts⟩

lemma find?_of_cast_none (h : w.Shows σ p) (hcast : p.cast id = none) : w.scheduler.find? id = none := by
  have hrel := h.cast id
  rw [hcast] at hrel
  cases hfind : w.scheduler.find? id with
  | none => rfl
  | some c =>
      rw [hfind] at hrel
      cases hrel

lemma isActive_iff (h : w.Shows σ p) {q : Portrait} (hcast : p.cast id = some q) :
    w.scheduler.IsActive id ↔ q.state.isActive = true := by
  obtain ⟨c, hfind, hdepicts⟩ := h.find?_of_cast hcast
  rw [Scheduler.isActive_iff hfind, hdepicts.state]

/-- Who may have the next turn is a matter of the play. -/
lemma canGoOn_iff (h : w.Shows σ p) : w.scheduler.CanGoOn id ↔ p.CanGoOn id := by
  have hactive (target : Nat) : (∀ d, w.scheduler.find? target = some d → d.state = .zombie ∨ d.state = .free) ↔
      ∀ r, p.cast target = some r → r.state.isActive = false := by
    rw [← Scheduler.not_isActive_iff]
    refine ⟨fun hidle r hr => ?_, fun hidle hactive => ?_⟩
    · rwa [h.isActive_iff hr, Bool.not_eq_true] at hidle
    · have ⟨d, hfind, _⟩ := hactive
      obtain ⟨r, hr, -⟩ := h.cast_of_find? hfind
      rw [h.isActive_iff hr, hidle r hr] at hactive
      contradiction
  constructor
  · rintro ⟨c, hfind, hstate⟩
    obtain ⟨q, hcast, hdepicts⟩ := h.cast_of_find? hfind
    rw [hdepicts.state, hdepicts.waitingOn] at hstate
    refine ⟨q, hcast, hstate.imp_right fun hwait => ⟨hwait.1, fun target r htarget => ?_⟩⟩
    exact (hactive target).mp (fun d => hwait.2 target d htarget) r
  · rintro ⟨q, hcast, hstate⟩
    obtain ⟨c, hfind, hdepicts⟩ := h.find?_of_cast hcast
    rw [← hdepicts.state, ← hdepicts.waitingOn] at hstate
    refine ⟨c, hfind, hstate.imp_right fun hwait => ⟨hwait.1, fun target d htarget => ?_⟩⟩
    exact (hactive target).mpr (fun r => hwait.2 target r htarget) d

/-- **A turn begins** in a scene of the play. -/
lemma opens (h : w.Shows σ p) (hnext : w.nextSession? = some s) (hopens : w.Opens s) :
    ∃ q, p.cast s.context.id = some q ∧ p.CanGoOn s.context.id ∧ s.scheduler.Shows σ p s.context.id ∧
    Scene.Depicts σ ⟨{ q with state := .run }, s.scheduler, p.text⟩ s := by
  obtain ⟨c, hfind, hcontext, hgo⟩ := hopens.taken
  obtain ⟨q, hcast, hdepicts⟩ := h.cast_of_find? hfind
  have houtput : s.output = ⟨p.text, true⟩ := (output_of_nextSession? hnext).trans h.output
  refine ⟨q, hcast, h.canGoOn_iff.mp hgo, ⟨hopens.nextId.trans h.nextId, fun id hid => ?_⟩,
    hopens.machine.trans h.machine, rfl, houtput, ?_⟩
  · have hkept : (w.scheduler.find? id).filter (fun c => c.state != .free) = w.scheduler.find? id := by
      cases hother : w.scheduler.find? id with
      | none => rfl
      | some d =>
          have hfree := h.orderly.not_free d (Scheduler.mem_of_find? hother)
          simp [Option.filter, hfree]
    rw [hopens.others id hid, hkept]
    exact h.cast id
  · rw [hcontext]
    exact { hdepicts with state := rfl }

end World.Shows

/-- **A turn ends** with a world of the play. -/
lemma Scene.Shows.endTurn (h : v.Shows σ p) (hs : v.Depicts σ s) (hhosts : s.scheduler.Hosts s.context.standing)
    (horderly : (s.endTurn .switched).scheduler.Orderly) : (s.endTurn .switched).Shows σ p := by
  have hid : s.context.id = v.id := hs.context.id
  have hleft : s.leftover .switched = s.context := rfl
  refine ⟨hs.machine, hs.output.trans (by rw [h.text]), horderly, ?_, fun id => ?_⟩
  · have hnext : (s.endTurn .switched).scheduler.nextId = s.scheduler.nextId := Scheduler.nextId_enrol ..
    rw [hnext, hs.scheduler, h.others.nextId]
  · rw [Session.find?_endTurn hhosts, hleft, hid]
    by_cases hown : id = v.id
    · have hstate : s.context.state ≠ .free := hs.context.state ▸ h.state
      rw [if_pos hown, hown, h.own, Option.filter_some, if_pos (by simpa using hstate)]
      exact .some hs.context
    · rw [if_neg hown, hs.scheduler]
      exact h.others.cast id hown

/-! ## Runs -/

/-- What is going to happen: from every state, each turn that may be given leads to a state that is closer to
the end, and as long as somebody has something left to do, some turn may be given. -/
structure Script (σ : Stage) (budget : Nat) (α : Type) where
  play : α → Play
  valid : α → Prop
  /-- How many turns are left at most. -/
  left : α → Nat
  turn : ∀ a, valid a → ∀ id q scheduler, (play a).cast id = some q → (play a).CanGoOn id →
    scheduler.Shows σ (play a) id →
    Scene.Switches σ budget ⟨{ q with state := .run }, scheduler, (play a).text⟩ fun v =>
      ∃ b, valid b ∧ left b < left a ∧ v.Shows σ (play b)
  alive : ∀ a, valid a → (∃ id, (play a).CanGoOn id) ∨ (play a).IsOver

namespace Script

variable {budget : Nat} {α : Type} (c : Script σ budget α) {a : α}

/-- **One turn**: the run is over, or it comes closer to its end. -/
lemma step (ha : c.valid a) (h : w.Shows σ (c.play a)) :
    ((c.play a).IsOver ∧ World.runNext budget w = .ok false w) ∨
      ∃ b w', c.valid b ∧ c.left b < c.left a ∧ w'.Shows σ (c.play b) ∧ World.runNext budget w = .ok true w' := by
  rcases h.orderly.toQueuesActive.cases with hnil | ⟨skipped, id, rest, hqueue, hgo, hskipped⟩ | ⟨hne, hstuck⟩
  · refine .inl ⟨fun id q hq => ?_, (bind_ok (World.search_ok (Scheduler.nextRunnable_of_nil hnil))).trans rfl⟩
    have hidle : ¬ w.scheduler.IsActive id := by
      rw [← h.orderly.mem_iff, hnil]
      exact List.not_mem_nil
    rwa [h.isActive_iff hq, Bool.not_eq_true] at hidle
  · rcases World.nextSession?_cases h.orderly.toRegistered budget with ⟨s, hnext, hopens, hrun⟩ | ⟨hnone, -⟩
    · obtain ⟨q, hcast, hcan, hothers, hscene⟩ := h.opens hnext hopens
      obtain ⟨t, v, ht, ⟨b, hb, hless, hv⟩, hturn⟩ := c.turn a ha _ q s.scheduler hcast hcan hothers s hscene
      have hlast := hturn budget (Nat.le_refl budget)
      have hhosts := (Session.evolves_runTurn budget hopens.running).hosts hopens.hosts
      have horderly := hopens.orderly_endTurn budget .switched
      rw [hlast] at hrun hhosts horderly
      exact .inr ⟨b, _, hb, hless, hv.endTurn ht hhosts horderly, hrun⟩
    · exact absurd hnone (World.nextSession?_ne_none hqueue hgo hskipped)
  · rcases c.alive a ha with ⟨id, hgo⟩ | hover
    · have hgo := h.canGoOn_iff.mpr hgo
      have hqueued : id ∈ w.scheduler.queue := by
        have ⟨d, hfind, hstate⟩ := hgo
        exact (h.orderly.mem_iff _).mpr ⟨d, hfind, hstate.imp_right And.left⟩
      exact absurd hgo (hstuck id hqueued).not_canGoOn
    · obtain ⟨id, hid⟩ := List.exists_mem_of_ne_nil _ hne
      obtain ⟨d, hfind, hstate⟩ := (h.orderly.mem_iff id).mp hid
      obtain ⟨q, hq, -⟩ := h.cast_of_find? hfind
      have hactive := (h.isActive_iff hq).mp ((h.orderly.mem_iff id).mp hid)
      rw [hover id q hq] at hactive
      contradiction

/-- **A run** comes to the end of the play, whoever is given the turns. -/
theorem run (turns : Nat) (ha : c.valid a) (h : w.Shows σ (c.play a)) (hturns : c.left a < turns) :
    ∃ b final, World.run budget turns w = .ok true final ∧ c.valid b ∧ final.Shows σ (c.play b) ∧
      (c.play b).IsOver := by
  induction turns generalizing a w with
  | zero => contradiction
  | succ turns ih =>
      rcases c.step ha h with ⟨hover, hrun⟩ | ⟨b, w', hb, hless, hw', hrun⟩
      · exact ⟨a, w, (bind_ok hrun).trans rfl, ha, h, hover⟩
      · obtain ⟨e, final, hrest, he⟩ := ih hb hw' (by omega)
        exact ⟨e, final, (bind_ok hrun).trans hrest, he⟩

end Script

end PostScriptCore
