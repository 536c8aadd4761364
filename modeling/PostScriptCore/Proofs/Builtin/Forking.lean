import PostScriptCore.Proofs.Builtin.Delivery
import PostScriptCore.Proofs.Transfer.Signals

/-!
# What a fork starts

A fork makes the whole child before it touches the parent.  One transfer copies the operands and
then the procedure; only if all of it succeeds do the operands give way to the child's handle.

* `Action.IsChild`, `Action.makeChild_cases` — the context that a fork makes, or an error.
* `Action.fork_made`, `Action.fork_cases` — a fork, and its two ends.
* `Session.ReadyToFork` — a fork about to be dispatched on operands above a mark.
* `Session.Forks`, `Session.LeavesParent` — what a fork has done if it asks for a switch, and if it
  fails.
* `Session.dispatch_fork` — it does one or the other.
-/

namespace PostScriptCore

/-- Copying one more object. -/
lemma Transfer.copyAll_concat {source : Memory} {objs images : List Object} {obj image : Object}
    {s t u : Transfer × Memory} (h : copyAll source objs s = .ok images t)
    (hlast : copy source obj t = .ok image u) :
    copyAll source (objs ++ [obj]) s = .ok (images ++ [image]) u := by
  induction objs generalizing s images with
  | nil =>
      cases h
      exact copyAll_cons_ok hlast rfl
  | cons first rest ih =>
      cases hfirst : copy source first s with
      | error fault t' =>
          rw [copyAll_cons_first hfirst] at h
          contradiction
      | ok image' s' =>
          cases hrest : copyAll source rest s' with
          | error fault t' =>
              rw [copyAll_cons_later hfirst hrest] at h
              contradiction
          | ok images' t' =>
              rw [copyAll_cons_ok hfirst hrest] at h
              cases h
              exact copyAll_cons_ok hfirst (ih hrest)

/-! ## The child -/

namespace Action

/-- A new context with images of the operands on its stack, about to execute the image of the
procedure above the operator that ends it.  All images are made by one transfer. -/
structure IsChild (settings : Settings) (parent : Memory) (zombie id : Nat)
    (operands : List Object) (proc : Object) (child : Context) : Prop where
  id_eq : child.id = id
  running : child.state = .run
  images : ∃ fresh images body transfer, Memory.create .localVM settings = .ok fresh ∧
    Transfer.copyAll parent (operands ++ [proc]) (Transfer.empty, fresh) =
      .ok (images ++ [body]) (transfer, child.localVM) ∧
    child.stackSet.operands.toList = images ∧
    child.stackSet.exec.toList = [Object.operator zombie, body]

/-- The contents of a fresh context are filled in, or there is an error. -/
lemma ends_fill (parent : Memory) (zombie : Nat) {c : Context}
    (hmemory : c.localVM.SearchesList) (hoperands : c.stackSet.operands.WellFormed)
    (hexec : c.stackSet.exec.WellFormed)
    (hoverflow : c.stackSet.operands.overflow.isControl = false)
    (hoverflow' : c.stackSet.exec.overflow.isControl = false)
    (operands : List Object) (proc : Object) :
    Ends (do
        receive parent operands
        let body ← intoLocalVM (Transfer.copy parent proc)
        ontoStackSet (StackSet.onExec (Stack.pushAll [Object.operator zombie, body])) :
          ReceiverM Unit) (Transfer.empty, c)
      (fun _ q => q.2.id = c.id ∧ q.2.state = c.state ∧ ∃ images body,
        Transfer.copyAll parent (operands ++ [proc]) (Transfer.empty, c.localVM) =
          .ok (images ++ [body]) (q.1, q.2.localVM) ∧
        q.2.stackSet.operands.toList = c.stackSet.operands.toList ++ images ∧
        q.2.stackSet.exec.toList = c.stackSet.exec.toList ++ [Object.operator zombie, body])
      fun fault _ => fault.isControl = false := by
  have hcopies := Transfer.faultless_copyAll parent operands (Transfer.empty, c.localVM) hmemory
  rw [Ends] at hcopies
  refine Ends.bind (Ends.mono (ends_receive parent operands Transfer.empty hoperands) ?_ ?_)
  · rintro _ q ⟨images, himages, hq⟩
    rw [himages] at hcopies
    have hbody := Transfer.faultless_copy parent proc (q.1, q.2.localVM) hcopies
    rw [Ends] at hbody
    refine Ends.bind (Ends.focus ?_)
    cases hlast : Transfer.copy parent proc (q.1, q.2.localVM) with
    | error fault part =>
        rw [hlast] at hbody
        exact Ends.of_error hlast hbody
    | ok body part =>
        have hkept : q.2.stackSet.exec = c.stackSet.exec := by rw [hq.same]
        refine Ends.of_ok hlast (Ends.focus (Ends.focus (Ends.focus ?_)))
        refine Ends.mono (Stack.ends_pushAll (hkept ▸ hexec) _) ?_ ?_
        · rintro _ exec ⟨-, hlist⟩
          have hsame := hq.same
          refine ⟨?_, ?_, images, body, Transfer.copyAll_concat himages hlast, hq.toList, ?_⟩
          · rw [hsame]
          · rw [hsame]
          · rw [← hkept]
            exact hlist
        · rintro fault _ rfl
          exact hkept ▸ hoverflow'
  · rintro fault q (⟨rfl, -⟩ | ⟨hfault, -⟩)
    · exact hoverflow
    · rw [hfault] at hcopies
      exact hcopies

/-- **The child of a fork.** -/
lemma makeChild_cases {settings : Settings} (h : 0 < settings.segmentSize) (parent : Memory)
    (zombie id : Nat) (operands : List Object) (proc : Object) :
    (∃ child, makeChild id settings parent zombie operands proc = .ok child ∧
      IsChild settings parent zombie id operands proc child) ∨
    ∃ fault, makeChild id settings parent zombie operands proc = .error fault ∧
      fault.isControl = false := by
  rw [makeChild, Context.create]
  cases hcreate : Memory.create .localVM settings with
  | error fault => exact .inr ⟨fault, rfl, Memory.errs_create _ _ _ hcreate⟩
  | ok fresh =>
      have hfill := ends_fill parent zombie
        (c := ⟨id, .run, fresh, StackSet.create settings, Object.null, none, none⟩)
        (Memory.searchesList_create hcreate) (Stack.wellFormed_create h _ _)
        (Stack.wellFormed_create h _ _) rfl rfl operands proc
      rw [Ends] at hfill
      dsimp only
      split at hfill
      · next q hrun =>
        obtain ⟨hid, hstate, images, body, hcopies, hoperands, hexec⟩ := hfill
        simp only [StackSet.create, Stack.toList_create, List.nil_append] at hoperands hexec
        rw [hrun]
        exact .inl ⟨q.2, rfl, hid, hstate, fresh, images, body, q.1, hcreate, hcopies, hoperands,
          hexec⟩
      · next fault q hrun =>
        rw [hrun]
        exact .inr ⟨fault, rfl, hfill⟩

/-- The operands are counted, a number is used up, and the child is made. -/
lemma fork_counted {ν : Type} {s : Session ν} {xs ys : List Object} {mark : Object}
    (hlist : s.context.stackSet.operands.toList = xs ++ mark :: ys) (hmark : mark.ty = .mark)
    (hys : ∀ obj ∈ ys, obj.ty ≠ .mark) (proc : Object) :
    fork proc s = (do
      let child ← query fun _ => makeChild s.scheduler.nextId s.settings s.context.localVM
        s.system.zombie ys proc
      Session.onOperands (Stack.drop (ys.length + 1))
      Session.push (Object.context s.scheduler.nextId)
      Session.modifyScheduler fun scheduler => scheduler.adopt child
      throw .contextSwitch : Action ν Unit) { s with scheduler := s.scheduler.allocateId.2 } := by
  have hquery : (query fun t : Session ν => t.context.stackSet.operands.countToMark) s =
      .ok ys.length s := query_ok (Stack.countToMark_eq hlist hmark hys)
  have htop : s.context.stackSet.operands.topmost ys.length = ys := Stack.topmost_above hlist
  refine (bind_ok hquery).trans ((bind_ok rfl).trans ?_)
  simp only [bind, EStateM.bind, query, htop]
  rfl

/-- **A fork whose child can be made** starts it and asks for a switch. -/
lemma fork_made {ν : Type} {s : Session ν} (h : s.context.stackSet.operands.WellFormed)
    {xs ys : List Object} {mark : Object}
    (hlist : s.context.stackSet.operands.toList = xs ++ mark :: ys) (hmark : mark.ty = .mark)
    (hys : ∀ obj ∈ ys, obj.ty ≠ .mark) {proc : Object} {child : Context}
    (hmake : makeChild s.scheduler.nextId s.settings s.context.localVM s.system.zombie ys proc = .ok child) :
    ∃ operands, operands.WellFormed ∧ operands.toList = xs ++ [Object.context s.scheduler.nextId] ∧
      operands.limit = s.context.stackSet.operands.limit ∧
      fork proc s = .error .contextSwitch { s.setOperands operands with
        scheduler := s.scheduler.allocateId.2.adopt child } := by
  have hcount : s.context.stackSet.operands.count = xs.length + 1 + ys.length := by
    rw [← Stack.length_toList, hlist, List.length_append, List.length_cons]
    omega
  obtain ⟨dropped, hdrop, hdropped, htake⟩ := Stack.drop_run h (n := ys.length + 1) (by omega)
  have hlimit : dropped.limit = s.context.stackSet.operands.limit := (Stack.limit_drop hdrop).1
  have hbelow : dropped.toList = xs := by
    have hrest : xs.length + 1 + ys.length - (ys.length + 1) = xs.length := by omega
    rw [htake, hlist, hcount, hrest, List.take_left]
  have hroom : dropped.count < dropped.limit := by
    have hle := h.count_le
    rw [hlimit, ← Stack.length_toList, hbelow]
    omega
  obtain ⟨operands, hpush, hoperands, hpushed, hlimit'⟩ :=
    Stack.push_run hdropped hroom (Object.context s.scheduler.nextId)
  refine ⟨operands, hoperands, hbelow ▸ hpushed, hlimit'.trans hlimit, ?_⟩
  have hchild : (query fun _ : Session ν => makeChild s.scheduler.nextId s.settings s.context.localVM
      s.system.zombie ys proc) { s with scheduler := s.scheduler.allocateId.2 } = .ok child _ := query_ok hmake
  rw [fork_counted hlist hmark hys]
  refine (bind_ok hchild).trans ?_
  refine (bind_ok (Session.onOperands_ok
    (s := { s with scheduler := s.scheduler.allocateId.2 }) hdrop)).trans ?_
  exact bind_ok (Session.onOperands_ok (s := Session.setOperands _ dropped) hpush)

/-- **A fork** starts a child and asks for a switch, or it fails and has used up a number. -/
lemma fork_cases {ν : Type} {s : Session ν} (hsegment : 0 < s.settings.segmentSize)
    (h : s.context.stackSet.operands.WellFormed) {xs ys : List Object} {mark : Object}
    (hlist : s.context.stackSet.operands.toList = xs ++ mark :: ys) (hmark : mark.ty = .mark)
    (hys : ∀ obj ∈ ys, obj.ty ≠ .mark) (proc : Object) :
    (∃ child operands,
      IsChild s.settings s.context.localVM s.system.zombie s.scheduler.nextId ys proc child ∧
      operands.WellFormed ∧ operands.toList = xs ++ [Object.context s.scheduler.nextId] ∧
      fork proc s = .error .contextSwitch { s.setOperands operands with
        scheduler := s.scheduler.allocateId.2.adopt child }) ∨
    ∃ fault, fault.isControl = false ∧
      fork proc s = .error fault { s with scheduler := s.scheduler.allocateId.2 } := by
  rcases makeChild_cases hsegment s.context.localVM s.system.zombie s.scheduler.nextId ys proc with
    ⟨child, hmake, hchild⟩ | ⟨fault, hmake, hfault⟩
  · obtain ⟨operands, hoperands, hpushed, -, hfork⟩ := fork_made h hlist hmark hys hmake
    exact .inl ⟨child, operands, hchild, hoperands, hpushed, hfork⟩
  · refine .inr ⟨fault, hfault, ?_⟩
    have hchild : (query fun _ : Session ν => makeChild s.scheduler.nextId s.settings s.context.localVM
        s.system.zombie ys proc) { s with scheduler := s.scheduler.allocateId.2 } = .error fault _ :=
      query_error hmake
    rw [fork_counted hlist hmark hys]
    exact bind_error hchild

end Action

/-! ## The dispatch -/

namespace Session

variable {ν : Type} [NativeSet ν] {s : Session ν} {opcode : Nat} {xs ys : List Object}
  {mark proc : Object}

/-- `fork` is about to be dispatched on a procedure, with the operands `ys` above a mark. -/
structure ReadyToFork (s : Session ν) (opcode : Nat) (xs : List Object) (mark : Object)
    (ys : List Object) (proc : Object) : Prop where
  offered : s.Offers opcode .proc 1 .fork
  segments : 0 < s.settings.segmentSize
  operands : s.context.stackSet.operands.WellFormed
  hold : s.context.stackSet.hold.WellFormed
  top : s.context.stackSet.operands.toList = xs ++ mark :: ys ++ [proc]
  is_mark : mark.ty = .mark
  unmarked : ∀ obj ∈ ys, obj.ty ≠ .mark
  is_proc : proc.isProc = true

/-- A child runs beside the parent, which holds its handle in place of mark and operands.  The handle
names the child as long as its number is a word. -/
structure Forks (s : Session ν) (xs ys : List Object) (proc : Object) (t : Session ν) : Prop where
  operands : t.context.stackSet.operands.toList = xs ++ [Object.context s.scheduler.nextId]
  child : ∃ child, t.scheduler.find? s.scheduler.nextId = some child ∧
    Action.IsChild s.settings s.context.localVM s.system.zombie s.scheduler.nextId ys proc child
  others : ∀ id, id ≠ s.scheduler.nextId → t.scheduler.find? id = s.scheduler.find? id
  queue : t.scheduler.queue = s.scheduler.queue ++ [s.scheduler.nextId]
  nextId : t.scheduler.nextId = s.scheduler.nextId + 1

/-- The parent has lost at most the procedure, and no context was added or queued. -/
structure LeavesParent (s : Session ν) (xs : List Object) (mark : Object) (ys : List Object)
    (proc : Object) (t : Session ν) : Prop where
  operands : t.context.stackSet.operands.toList = xs ++ mark :: ys ∨
    t.context.stackSet.operands.toList = xs ++ mark :: ys ++ [proc]
  localVM : t.context.localVM = s.context.localVM
  contexts : t.scheduler.contexts = s.scheduler.contexts
  queue : t.scheduler.queue = s.scheduler.queue

/-- **A dispatched fork** starts a child exactly if it asks for a switch. -/
lemma dispatch_fork (h : s.ReadyToFork opcode xs mark ys proc) :
    ∃ fault t, dispatch opcode s = .error fault t ∧
      (fault = .contextSwitch → s.Forks xs ys proc t) ∧
      (fault ≠ .contextSwitch → s.LeavesParent xs mark ys proc t) := by
  obtain ⟨hfull, hruns⟩ := dispatch_offered h.offered nofun (Nat.le_refl 1) h.is_proc h.operands
    h.hold h.top
  by_cases hroom : s.HasRoom
  · obtain ⟨operands, hold, hmoved, hdispatch⟩ := hruns hroom
    rw [hdispatch]
    rcases Action.fork_cases (s := s.holding opcode operands hold) h.segments hmoved.operands_wf
      hmoved.below h.is_mark h.unmarked proc with
      ⟨child, operands', hchild, -, hlist, hfork⟩ | ⟨fault, hfault, hfork⟩
    · obtain ⟨hold', -, -, -, hrelease⟩ := releasingHold_dropped hfork (.inl rfl) hmoved.hold_wf
        hmoved.held List.length_singleton
      refine ⟨_, _, hrelease, fun _ => ⟨hlist, ⟨child, ?_, hchild⟩, fun id hid => ?_, ?_, rfl⟩,
        fun hne => absurd rfl hne⟩
      · exact (Scheduler.find?_adopt _ child _).trans (if_pos hchild.id_eq.symm)
      · refine (Scheduler.find?_adopt _ child id).trans (if_neg ?_)
        rw [hchild.id_eq]
        exact hid
      · exact congrArg (s.scheduler.queue ++ [·]) hchild.id_eq
    · have hpos : 0 < hold.count := (Stack.slot_last hmoved.held).1 ▸ Nat.succ_pos _
      obtain ⟨hold', hrelease⟩ := releasingHold_error hfork hmoved.hold_wf hpos
      refine ⟨_, _, hrelease, fun hswitch => ?_, fun _ => ⟨.inl hmoved.below, rfl, rfl, rfl⟩⟩
      rw [hswitch] at hfault
      contradiction
  · refine ⟨_, _, hfull hroom, nofun, fun _ => ⟨.inr h.top, rfl, rfl, rfl⟩⟩

end Session

end PostScriptCore
