import PostScriptCore.Proofs.Context.Deadlock

/-!
# The registry of contexts

The scheduler's contexts are a map from numbers, and its queue is a second copy of part of what the
map says.  Each operation is described by what it does to the map; `Scheduler.Registered` says that
the two copies agree, and every operation that a turn performs keeps it.

* `Context.released` — what a join leaves of its target.
* `Scheduler.find?_insert`, `Scheduler.find?_update`, `Scheduler.find?_reap` — the operations on the
  map.
* `Scheduler.Registered` — queue and map agree, and numbers are distinct and below the next one.
* `Scheduler.Registered.enrolled`, `…updated`, `…reaped`, `…taken` — what keeps it.
* `Scheduler.Continues` — a later state of the registry: numbers are new or were there before.
-/

namespace PostScriptCore

/-- What a join leaves of its target. -/
def Context.released (c : Context) : Context :=
  { c with stackSet := { c.stackSet with operands := c.stackSet.operands.clear }, state := .free }

namespace Scheduler

variable {s t : Scheduler} {c : Context} {id : Nat}

/-! ## The map -/

lemma id_of_find? (h : s.find? id = some c) : c.id = id := by
  simpa using List.find?_some h

lemma mem_of_find? (h : s.find? id = some c) : c ∈ s.contexts := List.mem_of_find?_eq_some h

lemma find?_eq_none_iff : s.find? id = none ↔ ∀ c ∈ s.contexts, c.id ≠ id := by
  simp [find?]

lemma find?_eq_none_iff_notMem : s.find? id = none ↔ id ∉ s.contexts.map Context.id := by
  simp [find?_eq_none_iff]

lemma find?_insertOrdered (c : Context) (contexts : List Context) (id : Nat) :
    (insertOrdered c contexts).find? (fun d => d.id == id) =
      if id = c.id then some c else contexts.find? fun d => d.id == id := by
  induction contexts with
  | nil =>
      by_cases hid : id = c.id
      · simp [insertOrdered, hid]
      · simp [insertOrdered, hid, Ne.symm hid]
  | cons d rest ih =>
      rw [insertOrdered]
      by_cases hid : id = c.id
      · subst hid
        rw [if_pos rfl] at ih ⊢
        split_ifs with hlt heq
        · simp
        · simp
        · simp [ih, Ne.symm heq]
      · rw [if_neg hid] at ih ⊢
        split_ifs with hlt heq
        · simp [List.find?_cons, Ne.symm hid]
        · simp [← heq, Ne.symm hid]
        · simp [List.find?_cons, ih]

/-- A context that is put in hides the one with its number. -/
lemma find?_insert (s : Scheduler) (c : Context) (id : Nat) :
    (s.insert c).find? id = if id = c.id then some c else s.find? id :=
  find?_insertOrdered c s.contexts id

@[simp] lemma find?_enqueue (s : Scheduler) (number id : Nat) :
    (s.enqueue number).find? id = s.find? id := rfl

lemma find?_adopt (s : Scheduler) (c : Context) (id : Nat) :
    (s.adopt c).find? id = if id = c.id then some c else s.find? id := by
  rw [adopt, find?_enqueue, find?_insert]

lemma find?_update {f : Context → Context} (hf : ∀ c, c.id = id → (f c).id = id) (j : Nat) :
    (s.update id f).find? j = if j = id then (s.find? id).map f else s.find? j := by
  simp only [update, find?, List.find?_map]
  have hkeeps : (fun d : Context => d.id == j) ∘ (fun d => if d.id = id then f d else d) =
      fun d => d.id == j := by
    funext d
    by_cases hd : d.id = id
    · simp [hd, hf d hd]
    · simp [hd]
  rw [hkeeps]
  split_ifs with hj
  · subst hj
    cases hfind : s.contexts.find? fun d => d.id == j with
    | none => rfl
    | some d => simp [id_of_find? hfind]
  · cases hfind : s.contexts.find? fun d => d.id == j with
    | none => rfl
    | some d => simp [id_of_find? hfind, hj]

lemma find?_released (h : s.find? id = some c) :
    (s.update id Context.released).find? id = some c.released := by
  rw [find?_update (f := Context.released) fun _ hc => hc, if_pos rfl, h]
  rfl

lemma take?_eq_some (h : s.find? id = some c) :
    s.take? id = some (c, { s with contexts := s.contexts.filter fun d => d.id != id }) := by
  rw [take?, h]

/-- Taking a context out leaves the others. -/
lemma find?_filter_id (s : Scheduler) (id j : Nat) :
    ({ s with contexts := s.contexts.filter fun d => d.id != id } : Scheduler).find? j =
      if j = id then none else s.find? j := by
  simp only [find?, List.find?_filter]
  split_ifs with hj
  · subst hj
    simp
  · congr 1
    funext d
    by_cases hd : d.id = j
    · simp [hd, hj]
    · simp [hd]

/-- Forgetting the free contexts leaves the others. -/
lemma find?_reap (hids : (s.contexts.map Context.id).Nodup) (id : Nat) :
    s.reap.find? id = (s.find? id).filter fun c => c.state != .free := by
  have hids' : (s.reap.contexts.map Context.id).Nodup := hids.sublist (List.filter_sublist.map _)
  cases hfind : s.find? id with
  | none =>
      rw [find?_eq_none_iff] at hfind
      simp only [Option.filter_none, find?_eq_none_iff, reap, List.mem_filter]
      exact fun c hc => hfind c hc.1
  | some c =>
      obtain ⟨hmem, hid⟩ := (find?_eq_some_iff hids).mp hfind
      by_cases hfree : c.state = .free
      · have hgone : s.reap.find? id = none := by
          simp only [find?_eq_none_iff, reap, List.mem_filter, bne_iff_ne]
          rintro d ⟨hd, hstate⟩ hd'
          rw [List.inj_on_of_nodup_map hids hd hmem (hd'.trans hid.symm)] at hstate
          exact hstate hfree
        simp [hgone, Option.filter, hfree]
      · have hkept : s.reap.find? id = some c := by
          rw [find?_eq_some_iff hids']
          exact ⟨List.mem_filter.mpr ⟨hmem, bne_iff_ne.mpr hfree⟩, hid⟩
        simp [hkept, Option.filter, hfree]

lemma perm_insertOrdered {contexts : List Context}
    (h : ∀ d ∈ contexts, d.id ≠ c.id) : (insertOrdered c contexts).Perm (c :: contexts) := by
  induction contexts with
  | nil => exact List.Perm.refl _
  | cons d rest ih =>
      have hd := h d (List.mem_cons_self ..)
      rw [insertOrdered]
      split_ifs with hlt heq
      · exact List.Perm.refl _
      · exact absurd heq.symm hd
      · exact ((ih fun e he => h e (List.mem_cons_of_mem _ he)).cons d).trans (List.Perm.swap ..)

/-! ## Queue and map agree -/

/-- The queue holds the active contexts, numbers are distinct and below the next one, and a blocked
context says what it waits on. -/
structure Registered (s : Scheduler) : Prop extends QueuesActive s where
  ids_nodup : (s.contexts.map Context.id).Nodup
  ids_lt : ∀ c ∈ s.contexts, c.id < s.nextId
  waits : ∀ c ∈ s.contexts, c.state = .wait → ∃ target, c.waitingOn = some target

lemma registered_empty : Scheduler.empty.Registered where
  nodup := List.nodup_nil
  mem_iff := by simp [empty, IsActive, find?]
  ids_nodup := List.nodup_nil
  ids_lt := by simp [empty]
  waits := by simp [empty]

/-- A registry with a single number has a single context. -/
lemma Registered.contexts_eq_singleton (h : s.Registered) (hfind : s.find? id = some c)
    (hothers : ∀ j, j ≠ id → s.find? j = none) : s.contexts = [c] := by
  have hids (d : Context) (hd : d ∈ s.contexts) : d.id = id := by
    by_contra hne
    exact find?_eq_none_iff.mp (hothers d.id hne) d hd rfl
  have hnodup := h.ids_nodup
  have hmem := mem_of_find? hfind
  cases hcontexts : s.contexts with
  | nil =>
      rw [hcontexts] at hmem
      contradiction
  | cons d rest =>
      rw [hcontexts] at hids hnodup hmem
      cases rest with
      | nil => rw [List.mem_singleton.mp hmem]
      | cons e rest =>
          have hsame : d.id = e.id := (hids d (by simp)).trans (hids e (by simp)).symm
          simp [hsame] at hnodup

lemma Registered.find?_nextId (h : s.Registered) : s.find? s.nextId = none := by
  rw [find?_eq_none_iff]
  intro c hc
  exact Nat.ne_of_lt (h.ids_lt c hc)

/-- A number that is used up changes nothing else. -/
lemma Registered.allocated (h : s.Registered) : s.allocateId.2.Registered where
  nodup := h.nodup
  mem_iff := h.mem_iff
  ids_nodup := h.ids_nodup
  ids_lt := fun c hc => Nat.lt_succ_of_lt (h.ids_lt c hc)
  waits := h.waits

/-- Queues the context if it is active, and puts it into the registry. -/
def enrol (s : Scheduler) (c : Context) : Scheduler :=
  (if c.state.isActive then s.enqueue c.id else s).insert c

lemma adopt_eq_enrol (h : c.state.isActive = true) : s.adopt c = s.enrol c := by
  simp only [enrol, h, if_true]
  rfl

lemma find?_enrol (s : Scheduler) (c : Context) (id : Nat) :
    (s.enrol c).find? id = if id = c.id then some c else s.find? id := by
  rw [enrol, find?_insert]
  split_ifs <;> rfl

@[simp] lemma nextId_enrol (s : Scheduler) (c : Context) : (s.enrol c).nextId = s.nextId := by
  simp only [enrol]
  split_ifs <;> rfl

/-- A context with a number that is not in use can be put in. -/
lemma Registered.enrolled (h : s.Registered) (hnew : s.find? c.id = none) (hlt : c.id < s.nextId)
    (hwaits : c.state = .wait → ∃ target, c.waitingOn = some target) : (s.enrol c).Registered := by
  have hcontexts : (s.enrol c).contexts.Perm (c :: s.contexts) := by
    simp only [enrol]
    split_ifs <;> exact perm_insertOrdered (find?_eq_none_iff.mp hnew)
  have hids : ((s.enrol c).contexts.map Context.id).Nodup := by
    rw [(hcontexts.map Context.id).nodup_iff, List.map_cons, List.nodup_cons]
    exact ⟨find?_eq_none_iff_notMem.mp hnew, h.ids_nodup⟩
  have hqueue : (s.enrol c).QueuesActive := by
    rw [queuesActive_iff_perm hids]
    have hold := (queuesActive_iff_perm h.ids_nodup).mp h.toQueuesActive
    refine List.Perm.trans ?_ ((hcontexts.filter _).map Context.id).symm
    cases hactive : c.state.isActive with
    | false => simpa [enrol, hactive, insert, activeIds] using hold
    | true =>
        have hlast : (s.queue ++ [c.id]).Perm (c.id :: s.queue) := List.perm_append_singleton ..
        simpa [enrol, hactive, insert, enqueue, activeIds] using hlast.trans (hold.cons c.id)
  refine ⟨hqueue, hids, fun d hd => ?_, fun d hd => ?_⟩
  · rw [nextId_enrol]
    rcases List.mem_cons.mp (hcontexts.mem_iff.mp hd) with rfl | hd
    · exact hlt
    · exact h.ids_lt d hd
  · rcases List.mem_cons.mp (hcontexts.mem_iff.mp hd) with rfl | hd
    · exact hwaits
    · exact h.waits d hd

/-- A new context can be adopted. -/
lemma Registered.adopted (h : s.Registered) (hid : c.id = s.nextId) (hrun : c.state = .run) :
    (s.allocateId.2.adopt c).Registered := by
  rw [adopt_eq_enrol (by rw [hrun]; rfl)]
  refine h.allocated.enrolled ?_ (hid ▸ Nat.lt_succ_self _) fun hwait => ?_
  · rw [hid]
    exact h.find?_nextId
  · rw [hrun] at hwait
    contradiction

/-- A context can be changed as long as it keeps its number and stays active or inactive. -/
lemma Registered.updated (h : s.Registered) {f : Context → Context} (hfind : s.find? id = some c)
    (hid : (f c).id = id) (hactive : (f c).state.isActive = c.state.isActive)
    (hwaits : (f c).state = .wait → ∃ target, (f c).waitingOn = some target) :
    (s.update id f).Registered := by
  have honly : ∀ d ∈ s.contexts, d.id = id → d = c := by
    intro d hd hd'
    obtain ⟨hc, hc'⟩ := (find?_eq_some_iff h.ids_nodup).mp hfind
    exact List.inj_on_of_nodup_map h.ids_nodup hd hc (hd'.trans hc'.symm)
  have hids : (s.update id f).contexts.map Context.id = s.contexts.map Context.id := by
    simp only [update, List.map_map]
    refine List.map_congr_left fun d hd => ?_
    by_cases hd' : d.id = id
    · simp [honly d hd hd', id_of_find? hfind, hid]
    · simp [hd']
  have hactives : (s.update id f).activeIds = s.activeIds := by
    simp only [activeIds, update, List.filter_map, List.map_map]
    have hfilter : s.contexts.filter ((fun c : Context => c.state.isActive) ∘
        fun d => if d.id = id then f d else d) = s.contexts.filter fun d => d.state.isActive := by
      refine List.filter_congr fun d hd => ?_
      by_cases hd' : d.id = id
      · simp [honly d hd hd', id_of_find? hfind, hactive]
      · simp [hd']
    rw [hfilter]
    refine List.map_congr_left fun d hd => ?_
    have hmem := (List.mem_filter.mp hd).1
    by_cases hd' : d.id = id
    · simp [honly d hmem hd', id_of_find? hfind, hid]
    · simp [hd']
  have hnodup : ((s.update id f).contexts.map Context.id).Nodup := by
    rw [hids]
    exact h.ids_nodup
  have hqueue := (queuesActive_iff_perm h.ids_nodup).mp h.toQueuesActive
  rw [← hactives] at hqueue
  refine ⟨(queuesActive_iff_perm hnodup).mpr hqueue, hnodup, fun d hd => ?_, fun d hd => ?_⟩
  · have hd' : d.id ∈ s.contexts.map Context.id := by
      rw [← hids]
      exact List.mem_map_of_mem hd
    obtain ⟨e, he, hid'⟩ := List.mem_map.mp hd'
    rw [← hid']
    exact h.ids_lt e he
  · obtain ⟨e, he, rfl⟩ := List.mem_map.mp hd
    by_cases he' : e.id = id
    · rw [if_pos he', honly e he he']
      exact hwaits
    · rw [if_neg he']
      exact h.waits e he

/-- The contexts that are left after forgetting the free ones. -/
lemma Registered.reaped (h : s.Registered) : s.reap.Registered := by
  have hids : (s.reap.contexts.map Context.id).Nodup :=
    h.ids_nodup.sublist (List.filter_sublist.map _)
  have hactives : s.reap.activeIds = s.activeIds := by
    simp only [activeIds, reap, List.filter_filter]
    congr 1
    refine List.filter_congr fun c _ => ?_
    cases c.state <;> rfl
  have hqueue := (queuesActive_iff_perm h.ids_nodup).mp h.toQueuesActive
  rw [← hactives] at hqueue
  refine ⟨(queuesActive_iff_perm hids).mpr hqueue, hids, fun c hc => ?_, fun c hc => ?_⟩
  · exact h.ids_lt c (List.mem_filter.mp hc).1
  · exact h.waits c (List.mem_filter.mp hc).1

/-- Another order of the queue. -/
lemma Registered.turned (h : s.Registered) {queue : List Nat} (hqueue : queue.Perm s.queue) :
    ({ s with queue } : Scheduler).Registered where
  nodup := hqueue.nodup_iff.mpr h.nodup
  mem_iff := fun id => hqueue.mem_iff.trans (h.mem_iff id)
  ids_nodup := h.ids_nodup
  ids_lt := h.ids_lt
  waits := h.waits

/-- A context and its place in the queue are taken out together. -/
lemma Registered.taken (h : s.Registered) (hfind : s.find? id = some c) {queue : List Nat}
    (hqueue : s.queue.Perm (id :: queue)) :
    ({ s with queue, contexts := s.contexts.filter fun d => d.id != id } :
      Scheduler).Registered := by
  have hnotMem : id ∉ queue := (List.nodup_cons.mp (hqueue.nodup_iff.mp h.nodup)).1
  refine ⟨⟨(List.nodup_cons.mp (hqueue.nodup_iff.mp h.nodup)).2, fun j => ?_⟩,
    h.ids_nodup.sublist (List.filter_sublist.map _), fun d hd => ?_, fun d hd => ?_⟩
  · have hold : j ∈ id :: queue ↔ s.IsActive j := hqueue.mem_iff.symm.trans (h.mem_iff j)
    have hfind' := find?_filter_id { s with queue } id j
    by_cases hj : j = id
    · subst hj
      simp [IsActive, hfind', hnotMem]
    · simp only [hj, if_false] at hfind'
      simp only [List.mem_cons, hj, false_or] at hold
      rw [hold, IsActive, IsActive, hfind']
      rfl
  · exact h.ids_lt d (List.mem_filter.mp hd).1
  · exact h.waits d (List.mem_filter.mp hd).1

/-! ## Later states -/

/-- The numbers of the registered contexts. -/
def ids (s : Scheduler) : List Nat := s.contexts.map Context.id

lemma mem_ids_iff : id ∈ s.ids ↔ s.find? id ≠ none := by
  rw [ne_eq, find?_eq_none_iff_notMem, not_not]
  rfl

lemma mem_insertOrdered {d : Context} {contexts : List Context}
    (h : d ∈ insertOrdered c contexts) : d = c ∨ d ∈ contexts := by
  induction contexts with
  | nil => simpa [insertOrdered] using h
  | cons e rest ih =>
      rw [insertOrdered] at h
      split_ifs at h
      · simpa using h
      · simp only [List.mem_cons] at h ⊢
        tauto
      · simp only [List.mem_cons] at h ⊢
        rcases h with rfl | h
        · exact .inr (.inl rfl)
        · rcases ih h with hd | hd
          · exact .inl hd
          · exact .inr (.inr hd)

lemma mem_ids_insert {j : Nat} (h : j ∈ (s.insert c).ids) : j = c.id ∨ j ∈ s.ids := by
  obtain ⟨d, hd, rfl⟩ := List.mem_map.mp h
  rcases mem_insertOrdered hd with rfl | hd
  · exact .inl rfl
  · exact .inr (List.mem_map_of_mem hd)

lemma mem_enrol {d : Context} (h : d ∈ (s.enrol c).contexts) : d = c ∨ d ∈ s.contexts := by
  rw [enrol] at h
  have h' := mem_insertOrdered h
  split_ifs at h' <;> exact h'

lemma mem_ids_enrol {j : Nat} (h : j ∈ (s.enrol c).ids) : j = c.id ∨ j ∈ s.ids := by
  rw [enrol] at h
  have h' := mem_ids_insert h
  split_ifs at h' <;> exact h'

lemma ids_update {f : Context → Context} (hf : ∀ c, c.id = id → (f c).id = id) :
    (s.update id f).ids = s.ids := by
  simp only [ids, update, List.map_map]
  refine List.map_congr_left fun d _ => ?_
  by_cases hd : d.id = id
  · simp [hd, hf d hd]
  · simp [hd]

/-- From a state with the numbers `known`, all below `next`, to one with the numbers `present`:
those that were not known had not been used. -/
structure Renumbered (next : Nat) (known : List Nat) (next' : Nat) (present : List Nat) : Prop where
  next_le : next ≤ next'
  known_or_new : ∀ id ∈ present, id ∈ known ∨ next ≤ id

lemma Renumbered.refl (next : Nat) (known : List Nat) : Renumbered next known next known :=
  ⟨le_rfl, fun _ h => .inl h⟩

lemma Renumbered.trans {n₁ n₂ n₃ : Nat} {l₁ l₂ l₃ : List Nat} (h : Renumbered n₁ l₁ n₂ l₂)
    (h' : Renumbered n₂ l₂ n₃ l₃) : Renumbered n₁ l₁ n₃ l₃ := by
  refine ⟨h.next_le.trans h'.next_le, fun id hid => ?_⟩
  rcases h'.known_or_new id hid with hid | hid
  · exact h.known_or_new id hid
  · exact .inr (h.next_le.trans hid)

/-- In `t` every number is one of `s` or had not been used in `s`. -/
def Continues (s t : Scheduler) : Prop := Renumbered s.nextId s.ids t.nextId t.ids

end Scheduler

end PostScriptCore
