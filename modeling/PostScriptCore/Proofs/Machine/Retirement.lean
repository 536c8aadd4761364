import PostScriptCore.Proofs.Machine.Schedule

/-!
# Numbers that are retired

Once a context is free, its number means nothing any more: the context is forgotten when the turn
ends, and no new one gets its number.  Whoever still has a handle can neither join nor detach it.

* `Scheduler.Retired`, `Session.Retired` — no context with the number can be joined or detached.
* `Session.Evolves.retired`, `World.Opens.retired` — what keeps it.
* `Session.Later`, `Session.Retired.later` — it stays so in every later session.
* `Session.Retired.join`, `Session.Retired.detach` — the operators report an invalid context.
-/

namespace PostScriptCore

namespace Scheduler

variable {system : SystemOperators} {s t : Scheduler} {me me' : Standing} {id : Nat}

/-- The number has been used, and only a free context still has it. -/
structure Retired (s : Scheduler) (id : Nat) : Prop where
  used : id < s.nextId
  free : ∀ c, s.find? id = some c → c.state = .free

/-- **An effect keeps numbers retired.** -/
lemma Effect.retired (heffect : Effect system s me t me') (h : s.Retired id) : t.Retired id := by
  cases heffect with
  | quiet | blocked | ended => exact h
  | numbered => exact ⟨Nat.lt_succ_of_lt h.used, h.free⟩
  | forked child hid hstate =>
      refine ⟨Nat.lt_succ_of_lt h.used, fun c hc => ?_⟩
      have hne : id ≠ child.id := by
        rw [hid]
        exact Nat.ne_of_lt h.used
      rw [find?_adopt, if_neg hne] at hc
      exact h.free c hc
  | joined target hfind hzombie hrun =>
      refine ⟨h.used, fun c hc => ?_⟩
      rw [find?_update (f := Context.released) fun _ hc => hc] at hc
      split_ifs at hc
      · obtain ⟨d, -, rfl⟩ := Option.map_eq_some_iff.mp hc
        rfl
      · exact h.free c hc
  | detached target c hfind hdetached =>
      obtain ⟨hfree, hid, -⟩ := Action.standing_detached hdetached
      refine ⟨h.used, fun d hd => ?_⟩
      rw [find?_update fun _ _ => hid] at hd
      split_ifs at hd with heq
      · -- what is free cannot be detached
        subst heq
        exact absurd (h.free target hfind) hfree
      · exact h.free d hd

/-- A number that was used and is not registered stays so. -/
lemma Continues.retired (hcontinues : s.Continues t) (hused : id < s.nextId)
    (hnone : s.find? id = none) : id < t.nextId ∧ t.find? id = none := by
  refine ⟨Nat.lt_of_lt_of_le hused hcontinues.next_le, ?_⟩
  by_contra hfind
  rcases hcontinues.known_or_new id (mem_ids_iff.mpr hfind) with hmem | hle
  · exact mem_ids_iff.mp hmem hnone
  · omega

end Scheduler

namespace Session

variable {ν : Type} {s t : Session ν} {id : Nat}

/-- Nor does the running context have the number. -/
structure Retired (s : Session ν) (id : Nat) : Prop extends s.scheduler.Retired id where
  not_running : id ≠ s.context.id

lemma Affects.retired (haffects : Affects s t) (h : s.Retired id) : t.Retired id := by
  have hid : t.context.id = s.context.id := haffects.effect.id_eq
  exact ⟨haffects.effect.retired h.toRetired, hid ▸ h.not_running⟩

lemma Evolves.retired (hevolves : Evolves s t) (h : s.Retired id) : t.Retired id := by
  induction hevolves with
  | refl => exact h
  | tail _ hstep ih => exact hstep.retired ih

/-- After the turn nothing is left of a context whose number is retired. -/
lemma Retired.find?_endTurn (h : s.Retired id) (hs : s.scheduler.Hosts s.context.standing)
    (turn : Turn) : id < (s.endTurn turn).scheduler.nextId ∧
      (s.endTurn turn).scheduler.find? id = none := by
  refine ⟨Nat.lt_of_lt_of_le h.used (renumbered_endTurn turn s).next_le, ?_⟩
  rw [Session.find?_endTurn hs, if_neg h.not_running]
  cases hfind : s.scheduler.find? id with
  | none => rfl
  | some c => simp [Option.filter, h.free c hfind]

end Session

/-- A turn begins without the number. -/
lemma World.Opens.retired {ν : Type} {w : World ν} {s : Session ν} (h : w.Opens s) {id : Nat}
    (hused : id < w.scheduler.nextId) (hnone : w.scheduler.find? id = none) : s.Retired id := by
  have hne : id ≠ s.context.id := by
    rintro rfl
    obtain ⟨c, hfind, -⟩ := h.taken
    rw [hnone] at hfind
    contradiction
  refine ⟨⟨h.nextId ▸ hused, fun c hc => ?_⟩, hne⟩
  rw [h.others id hne, hnone] at hc
  contradiction

namespace Session

/-- The sessions after a session: later in the same turn, or in a later turn, whatever is spawned
and run before that.  The running context is itself, with its stacks in any state. -/
inductive Later (s : Session Builtin) : Session Builtin → Prop
  | sameTurn (objects : Nat) (c : Context) (hid : c.id = (runTurn objects s).2.context.id) :
    Later s { (runTurn objects s).2 with context := c }
  | otherTurn (objects : Nat) (turn : Turn) (calls : List World.Call) (t : Session Builtin)
    (hnext : (((runTurn objects s).2.endTurn turn).after calls).nextSession? = some t)
    (objects' : Nat) (c : Context) (hid : c.id = (runTurn objects' t).2.context.id) :
    Later s { (runTurn objects' t).2 with context := c }

variable {s t : Session Builtin} {id : Nat} {handle : Object}

/-- **What is retired stays retired.** -/
lemma Retired.later (h : s.Retired id) (hrun : s.context.state = .run)
    (hs : s.scheduler.Hosts s.context.standing) (hlater : s.Later t) : t.Retired id := by
  cases hlater with
  | sameTurn objects c hid =>
      have hretired := (evolves_runTurn objects hrun).retired h
      exact ⟨hretired.toRetired, hid ▸ hretired.not_running⟩
  | otherTurn objects turn calls t hnext objects' c hid =>
      have hevolves := evolves_runTurn objects hrun
      have horderly := (registered_enrol_leftover (hevolves.hosts hs) turn).orderly_reap
      obtain ⟨hused, hnone⟩ := (hevolves.retired h).find?_endTurn (hevolves.hosts hs) turn
      obtain ⟨horderly', hcontinues⟩ :=
        World.orderly_after (w := (runTurn objects s).2.endTurn turn) horderly calls
      obtain ⟨hused', hnone'⟩ := hcontinues.retired hused hnone
      have hopens := World.opens_of_nextSession? horderly'.toRegistered hnext
      have hretired := (evolves_runTurn objects' hopens.running).retired
        (hopens.retired hused' hnone')
      exact ⟨hretired.toRetired, hid ▸ hretired.not_running⟩

/-- **A retired context cannot be joined.** -/
lemma Retired.join (h : s.Retired id) (hnames : handle.asContext? = some id) :
    Action.join handle s = .error .invalidContext s := by
  rw [Action.join, hnames]
  refine (bind_ok (t := s) rfl).trans ?_
  cases hfind : s.scheduler.find? id with
  | none => rfl
  | some c =>
      simp only [h.free c hfind]
      rfl

/-- **A retired context cannot be detached.** -/
lemma Retired.detach (h : s.Retired id) (hnames : handle.asContext? = some id) :
    Action.detach handle s = .error .invalidContext s := by
  rw [Action.detach, hnames]
  refine (bind_ok (t := s) rfl).trans ?_
  rw [if_neg h.not_running]
  cases hfind : s.scheduler.find? id with
  | none => rfl
  | some c =>
      refine bind_error (query_error ?_)
      rw [Action.detached, h.free c hfind]

end Session

end PostScriptCore
