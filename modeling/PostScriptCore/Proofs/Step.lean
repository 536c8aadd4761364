import PostScriptCore.Step
import Mathlib.Order.Defs.Unbundled
import Mathlib.Tactic.Lemma

/-!
# Reasoning about steps

A step ends with an answer or with a fault, and in both cases in some state.  `Ends` states what
holds at either end, and there is one rule for each way in which steps are put together.

* `finalState`, `answer?` — the state a step ends in, whatever its outcome, and its answer if there is one.
* `Ends` — what holds of the answer and the state, or of the fault and the state.
* `Keeps` — the special case of a step that keeps an invariant, whatever its outcome.
* `Follows` — a step that moves along a relation, whatever its outcome.
* `bind_ok`, `bind_error`, `query_ok`, `query_error` — running a step whose parts are known.
-/

namespace PostScriptCore

variable {ε σ τ α β : Type}

/-- The state a step ends in. -/
def finalState (x : EStateM ε σ α) (s : σ) : σ :=
  match x s with
  | .ok _ s => s
  | .error _ s => s

/-- The answer of a step, if it succeeds. -/
def answer? (x : EStateM ε σ α) (s : σ) : Option α :=
  match x s with
  | .ok a _ => some a
  | .error _ _ => none

/-- From `s`, the step ends well with `ok`, or fails with `err`. -/
def Ends (x : EStateM ε σ α) (s : σ) (ok : α → σ → Prop) (err : ε → σ → Prop) : Prop :=
  match x s with
  | .ok a s => ok a s
  | .error e s => err e s

/-! ## Running -/

lemma bind_ok {x : EStateM ε σ α} {f : α → EStateM ε σ β} {s t : σ} {a : α}
    (h : x s = .ok a t) : (x >>= f) s = f a t := by
  show EStateM.bind x f s = _
  rw [EStateM.bind, h]

lemma bind_error {x : EStateM ε σ α} {f : α → EStateM ε σ β} {s t : σ} {e : ε}
    (h : x s = .error e t) : (x >>= f) s = .error e t := by
  show EStateM.bind x f s = _
  rw [EStateM.bind, h]

lemma bind_congr_run {x y : EStateM ε σ α} {f : α → EStateM ε σ β} {s t : σ} (h : x s = y t) :
    (x >>= f) s = (y >>= f) t := by
  show EStateM.bind x f s = EStateM.bind y f t
  rw [EStateM.bind, EStateM.bind, h]

lemma query_ok {f : σ → Except ε α} {s : σ} {a : α} (h : f s = .ok a) :
    query f s = .ok a s := by
  rw [query, h]

lemma query_error {f : σ → Except ε α} {s : σ} {e : ε} (h : f s = .error e) :
    query f s = .error e s := by
  rw [query, h]

lemma discard_ok {x : EStateM ε σ α} {s t : σ} {a : α} (h : x s = .ok a t) :
    (discard x) s = .ok () t := by
  show EStateM.map _ x s = _
  rw [EStateM.map, h]

lemma map_error {x : EStateM ε σ α} {f : α → β} {s t : σ} {e : ε} (h : x s = .error e t) :
    (f <$> x) s = .error e t := by
  show EStateM.map f x s = _
  rw [EStateM.map, h]

lemma discard_error {x : EStateM ε σ α} {s t : σ} {e : ε} (h : x s = .error e t) :
    (discard x) s = .error e t :=
  map_error h

lemma finalState_of_ok {x : EStateM ε σ α} {s t : σ} {a : α} (h : x s = .ok a t) :
    finalState x s = t := by
  rw [finalState, h]

lemma finalState_of_error {x : EStateM ε σ α} {s t : σ} {e : ε} (h : x s = .error e t) :
    finalState x s = t := by
  rw [finalState, h]

lemma finalState_bind_ok {x : EStateM ε σ α} {f : α → EStateM ε σ β} {s t : σ} {a : α}
    (h : x s = .ok a t) : finalState (x >>= f) s = finalState (f a) t := by
  rw [finalState, bind_ok h, finalState]

lemma finalState_map (f : α → β) (x : EStateM ε σ α) (s : σ) :
    finalState (f <$> x) s = finalState x s := by
  show (match EStateM.map f x s with | .ok _ t => t | .error _ t => t) = _
  rw [EStateM.map, finalState]
  cases x s <;> rfl

lemma finalState_discard (x : EStateM ε σ α) (s : σ) : finalState (discard x) s = finalState x s :=
  finalState_map _ x s

lemma answer?_map (f : α → β) (x : EStateM ε σ α) (s : σ) :
    answer? (f <$> x) s = (answer? x s).map f := by
  show (match EStateM.map f x s with | .ok b _ => some b | .error _ _ => none) = _
  rw [EStateM.map, answer?]
  cases x s <;> rfl

/-! ## Rules -/

namespace Ends

variable {ok : α → σ → Prop} {err : ε → σ → Prop} {s : σ}

lemma of_ok {x : EStateM ε σ α} {t : σ} {a : α} (h : x s = .ok a t) (hok : ok a t) :
    Ends x s ok err := by
  rw [Ends, h]
  exact hok

lemma of_error {x : EStateM ε σ α} {t : σ} {e : ε} (h : x s = .error e t) (herr : err e t) :
    Ends x s ok err := by
  rw [Ends, h]
  exact herr

lemma pure {a : α} (h : ok a s) : Ends (Pure.pure a : EStateM ε σ α) s ok err := h

lemma throw {e : ε} (h : err e s) : Ends (MonadExcept.throw e : EStateM ε σ α) s ok err := h

lemma bind {ok' : β → σ → Prop} {x : EStateM ε σ α} {f : α → EStateM ε σ β}
    (h : Ends x s (fun a t => Ends (f a) t ok' err) err) : Ends (x >>= f) s ok' err := by
  rw [Ends] at h
  split at h
  · next hx =>
    rw [Ends, bind_ok hx]
    exact h
  · next hx =>
    rw [Ends, bind_error hx]
    exact h

lemma query {f : σ → Except ε α} (hok : ∀ a, f s = .ok a → ok a s)
    (herr : ∀ e, f s = .error e → err e s) : Ends (PostScriptCore.query f) s ok err := by
  cases hf : f s with
  | ok a => exact of_ok (query_ok hf) (hok a hf)
  | error e => exact of_error (query_error hf) (herr e hf)

lemma focus {view : τ → σ} {update : σ → τ → τ} {vacant : σ} {x : EStateM ε σ α} {whole : τ}
    {ok : α → τ → Prop} {err : ε → τ → Prop}
    (h : Ends x (view whole) (fun a part => ok a (update part (update vacant whole)))
      (fun e part => err e (update part (update vacant whole)))) :
    Ends (PostScriptCore.focus view update vacant x) whole ok err := by
  rw [Ends] at h
  rw [Ends, PostScriptCore.focus]
  cases hx : x (view whole) with
  | ok a part =>
      rw [hx] at h
      exact h
  | error e part =>
      rw [hx] at h
      exact h

/-- What holds of the end that a successful run reaches. -/
lemma ok_of {x : EStateM ε σ α} {t : σ} {a : α} (h : Ends x s ok err) (hrun : x s = .ok a t) :
    ok a t := by
  rw [Ends, hrun] at h
  exact h

lemma error_of {x : EStateM ε σ α} {t : σ} {e : ε} (h : Ends x s ok err) (hrun : x s = .error e t) :
    err e t := by
  rw [Ends, hrun] at h
  exact h

lemma map {ok' : β → σ → Prop} {x : EStateM ε σ α} {f : α → β}
    (h : Ends x s (fun a t => ok' (f a) t) err) : Ends (f <$> x) s ok' err := by
  show (match EStateM.map f x s with | .ok b t => ok' b t | .error e t => err e t)
  rw [EStateM.map]
  cases hx : x s with
  | ok a t => exact h.ok_of hx
  | error e t => exact h.error_of hx

/-- What holds of every end. -/
lemma always {x : EStateM ε σ α} (hok : ∀ a t, ok a t) (herr : ∀ e t, err e t) :
    Ends x s ok err := by
  rw [Ends]
  split
  · exact hok _ _
  · exact herr _ _

lemma modify {f : σ → σ} {ok : PUnit → σ → Prop} (h : ok ⟨⟩ (f s)) :
    Ends (modify f : EStateM ε σ PUnit) s ok err := h

lemma get {ok : σ → σ → Prop} (h : ok s s) : Ends (get : EStateM ε σ σ) s ok err := h

lemma attempt {x : EStateM ε σ α} {ok : Unit → σ → Prop}
    (h : Ends x s (fun _ t => ok () t) (fun _ t => ok () t)) :
    Ends (attempt x) s ok err := by
  rw [Ends] at h
  rw [Ends, PostScriptCore.attempt]
  cases hx : x s with
  | ok a t =>
      rw [hx] at h
      exact h
  | error e t =>
      rw [hx] at h
      exact h

lemma mono {x : EStateM ε σ α} {ok' : α → σ → Prop} {err' : ε → σ → Prop} (h : Ends x s ok err)
    (hok : ∀ a t, ok a t → ok' a t) (herr : ∀ e t, err e t → err' e t) :
    Ends x s ok' err' := by
  rw [Ends] at h ⊢
  split at h
  · exact hok _ _ h
  · exact herr _ _ h

/-- Less may be said of a success. -/
lemma imp {x : EStateM ε σ α} {ok' : α → σ → Prop} (h : Ends x s ok err) (hok : ∀ a t, ok a t → ok' a t) :
    Ends x s ok' err :=
  h.mono hok fun _ _ he => he

lemma and {x : EStateM ε σ α} {ok' : α → σ → Prop} {err' : ε → σ → Prop} (h : Ends x s ok err)
    (h' : Ends x s ok' err') :
    Ends x s (fun a t => ok a t ∧ ok' a t) (fun e t => err e t ∧ err' e t) := by
  rw [Ends] at h h' ⊢
  split at h
  · next hx =>
    rw [hx] at h'
    exact ⟨h, h'⟩
  · next hx =>
    rw [hx] at h'
    exact ⟨h, h'⟩

lemma finalState {x : EStateM ε σ α} {P : σ → Prop}
    (h : Ends x s (fun _ t => P t) (fun _ t => P t)) : P (finalState x s) := by
  rw [Ends] at h
  rw [PostScriptCore.finalState]
  split at h <;> exact h

end Ends

/-- The step keeps the invariant also when it fails, and its answer has a property. -/
def Keeps (I : σ → Prop) (x : EStateM ε σ α) (s : σ) (P : α → σ → Prop) : Prop :=
  Ends x s (fun a t => I t ∧ P a t) (fun _ t => I t)

namespace Keeps

variable {I : σ → Prop} {s : σ} {P : α → σ → Prop} {Q : β → σ → Prop}

lemma bind {x : EStateM ε σ α} {f : α → EStateM ε σ β} (hx : Keeps I x s P)
    (hf : ∀ a t, I t → P a t → Keeps I (f a) t Q) : Keeps I (x >>= f) s Q :=
  Ends.bind (Ends.mono hx (fun a t h => hf a t h.1 h.2) fun _ _ h => h)

lemma pure {a : α} (hs : I s) (h : P a s) : Keeps I (Pure.pure a : EStateM ε σ α) s P := ⟨hs, h⟩

lemma throw {e : ε} (hs : I s) : Keeps I (MonadExcept.throw e : EStateM ε σ α) s P := hs

lemma throw_bind {e : ε} {f : α → EStateM ε σ β} (hs : I s) :
    Keeps I ((MonadExcept.throw e : EStateM ε σ α) >>= f) s Q := hs

lemma query {f : σ → Except ε α} (hs : I s) :
    Keeps I (PostScriptCore.query f) s fun a t => t = s ∧ f s = .ok a :=
  Ends.query (fun _ ha => ⟨hs, rfl, ha⟩) fun _ _ => hs

lemma of_ok {x : EStateM ε σ α} {a : α} {t : σ} (hrun : x s = .ok a t) (ht : I t) (h : P a t) :
    Keeps I x s P :=
  Ends.of_ok hrun ⟨ht, h⟩

lemma of_error {x : EStateM ε σ α} {e : ε} {t : σ} (hrun : x s = .error e t) (ht : I t) :
    Keeps I x s P :=
  Ends.of_error hrun ht

lemma mono {P' : α → σ → Prop} {x : EStateM ε σ α} (h : Keeps I x s P)
    (himp : ∀ a t, P a t → P' a t) : Keeps I x s P' :=
  Ends.mono h (fun a t ht => ⟨ht.1, himp a t ht.2⟩) fun _ _ ht => ht

lemma with_run {x : EStateM ε σ α} (h : Keeps I x s P) : Keeps I x s fun a t => P a t ∧ x s = .ok a t := by
  rw [Keeps, Ends] at h
  split at h
  · next hx => exact .of_ok hx h.1 ⟨h.2, hx⟩
  · next hx => exact .of_error hx h

lemma finalState {x : EStateM ε σ α} (h : Keeps I x s P) : I (finalState x s) :=
  Ends.finalState (Ends.mono h (fun _ _ ht => ht.1) fun _ _ ht => ht)

end Keeps

/-- The step moves along a relation, whatever its outcome. -/
def Follows (R : σ → σ → Prop) (x : EStateM ε σ α) : Prop :=
  ∀ s, Ends x s (fun _ t => R s t) (fun _ t => R s t)

namespace Follows

variable {R : σ → σ → Prop}

lemma of_final {x : EStateM ε σ α} (h : ∀ s, R s (PostScriptCore.finalState x s)) :
    Follows R x := by
  intro s
  have hs := h s
  rw [PostScriptCore.finalState] at hs
  rw [Ends]
  split <;> simp_all

section Reflexive

variable [Std.Refl R]

lemma pure (a : α) : Follows R (Pure.pure a : EStateM ε σ α) := fun s => Std.Refl.refl s

lemma throw (e : ε) : Follows R (MonadExcept.throw e : EStateM ε σ α) := fun s => Std.Refl.refl s

lemma throw_bind (e : ε) {f : α → EStateM ε σ β} :
    Follows R ((MonadExcept.throw e : EStateM ε σ α) >>= f) := fun s => Std.Refl.refl s

lemma query (f : σ → Except ε α) : Follows R (PostScriptCore.query f) := fun s =>
  Ends.query (fun _ _ => Std.Refl.refl s) fun _ _ => Std.Refl.refl s

lemma get : Follows R (MonadState.get : EStateM ε σ σ) := fun s => Ends.get (Std.Refl.refl s)

end Reflexive

lemma bind [IsTrans σ R] {x : EStateM ε σ α} {f : α → EStateM ε σ β} (hx : Follows R x)
    (hf : ∀ a, Follows R (f a)) : Follows R (x >>= f) := fun s =>
  Ends.bind (Ends.mono (hx s)
    (fun a t ht => Ends.mono (hf a t) (fun _ _ hu => IsTrans.trans _ _ _ ht hu)
      fun _ _ hu => IsTrans.trans _ _ _ ht hu) fun _ _ ht => ht)

lemma modify {f : σ → σ} (hf : ∀ s, R s (f s)) :
    Follows R (MonadState.modifyGet fun s => (PUnit.unit, f s) : EStateM ε σ PUnit) := fun s => hf s

lemma map {x : EStateM ε σ α} (hx : Follows R x) (f : α → β) : Follows R (f <$> x) := by
  refine of_final fun s => ?_
  rw [finalState_map]
  exact Ends.finalState (hx s)

lemma discard {x : EStateM ε σ α} (hx : Follows R x) : Follows R (Functor.discard x) := hx.map _

lemma of_discard {x : EStateM ε σ α} (hx : Follows R (Functor.discard x)) : Follows R x := by
  refine of_final fun s => ?_
  rw [← finalState_discard]
  exact Ends.finalState (hx s)

lemma attempt {x : EStateM ε σ α} (hx : Follows R x) : Follows R (PostScriptCore.attempt x) :=
  fun s => Ends.attempt (hx s)

lemma ite {p : Prop} [Decidable p] {x y : EStateM ε σ α} (hx : Follows R x) (hy : Follows R y) :
    Follows R (if p then x else y) := by
  split
  · exact hx
  · exact hy

end Follows

end PostScriptCore
