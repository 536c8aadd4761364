import PostScriptCore.Builtin.Basic
import PostScriptCore.Machine.Turn
import PostScriptCore.Proofs.Context.Registry
import PostScriptCore.Proofs.Machine.Dispatch
import PostScriptCore.Proofs.Transfer.Faults

/-!
# What a join delivers

A join pushes a mark and then, one by one, copies of the operands of a finished context.  Each copy
is pushed as soon as it is made, so a copy that fails leaves what was pushed before it.

* `Transfer.copyable` — the images before the first object that cannot be copied.
* `Action.ends_receive` — what copying onto the operand stack leaves there.
* `Session.ends_deliver`, `Session.ends_dispatch_join` — the ends of a delivery, and of the whole
  join.
* `Session.JoinsAllOrNothing`, `Session.joins_all_or_nothing_iff` — when a failed join leaves nothing
  behind.
-/

namespace PostScriptCore

/-! ## Copying objects in order -/

namespace Transfer

variable {source : Memory} {obj image : Object} {rest images : List Object}
  {s t u : Transfer × Memory} {fault : Fault}

/-- The images of the objects before the first one that cannot be copied. -/
def copyable (source : Memory) : List Object → Transfer × Memory → List Object
  | [], _ => []
  | obj :: rest, s =>
    match copy source obj s with
    | .ok image s => image :: copyable source rest s
    | .error _ _ => []

lemma copyAll_cons_ok (h : copy source obj s = .ok image t)
    (hrest : copyAll source rest t = .ok images u) :
    copyAll source (obj :: rest) s = .ok (image :: images) u :=
  (bind_ok h).trans (bind_ok hrest)

lemma copyAll_cons_later (h : copy source obj s = .ok image t)
    (hrest : copyAll source rest t = .error fault u) :
    copyAll source (obj :: rest) s = .error fault u :=
  (bind_ok h).trans (bind_error hrest)

lemma copyAll_cons_first (h : copy source obj s = .error fault t) :
    copyAll source (obj :: rest) s = .error fault t :=
  bind_error h

end Transfer

namespace Action

/-- The context has taken the objects on its operand stack, and its local memory may have changed. -/
structure Received (c d : Context) (images : List Object) : Prop where
  same : d = { c with
    localVM := d.localVM, stackSet := { c.stackSet with operands := d.stackSet.operands } }
  operands_wf : d.stackSet.operands.WellFormed
  toList : d.stackSet.operands.toList = c.stackSet.operands.toList ++ images
  limit : d.stackSet.operands.limit = c.stackSet.operands.limit
  overflow : d.stackSet.operands.overflow = c.stackSet.operands.overflow

lemma Received.nil {c : Context} (h : c.stackSet.operands.WellFormed) (m : Memory) :
    Received c { c with localVM := m } [] :=
  ⟨rfl, h, (List.append_nil _).symm, rfl, rfl⟩

lemma Received.append {c d e : Context} {images more : List Object} (h : Received c d images)
    (h' : Received d e more) : Received c e (images ++ more) where
  same := by rw [h'.same, h.same]
  operands_wf := h'.operands_wf
  toList := by rw [h'.toList, h.toList, List.append_assoc]
  limit := h'.limit.trans h.limit
  overflow := h'.overflow.trans h.overflow

/-- The image is pushed if there is room. -/
lemma ends_push_image {c : Context} (h : c.stackSet.operands.WellFormed) (t : Transfer)
    (image : Object) :
    Ends (ontoStackSet (StackSet.onOperands (Stack.push image))) (t, c)
      (fun _ q => q.1 = t ∧ q.2.localVM = c.localVM ∧ Received c q.2 [image])
      fun fault _ => fault = c.stackSet.operands.overflow ∧
        c.stackSet.operands.limit ≤ c.stackSet.operands.count := by
  refine Ends.focus (Ends.focus (Ends.focus ?_))
  by_cases hfull : c.stackSet.operands.limit ≤ c.stackSet.operands.count
  · exact Ends.of_error (Stack.push_full hfull image) ⟨rfl, hfull⟩
  · obtain ⟨operands, hpush, hwf, hlist, -⟩ := Stack.push_run h (Nat.lt_of_not_le hfull) image
    obtain ⟨hlimit, hoverflow⟩ := Stack.limit_push hpush
    exact Ends.of_ok hpush ⟨rfl, rfl, rfl, hwf, hlist, hlimit, hoverflow⟩

/-- **Copies are pushed as they are made.**  All of them arrive; or there is no room for all; or one
cannot be made, and those before it have arrived. -/
lemma ends_receive (source : Memory) (objs : List Object) (t : Transfer) {c : Context}
    (h : c.stackSet.operands.WellFormed) :
    Ends (receive source objs) (t, c)
      (fun _ q => ∃ images, Transfer.copyAll source objs (t, c.localVM) =
        .ok images (q.1, q.2.localVM) ∧ Received c q.2 images)
      fun fault q =>
        (fault = c.stackSet.operands.overflow ∧
          c.stackSet.operands.limit < c.stackSet.operands.count + objs.length) ∨
        (Transfer.copyAll source objs (t, c.localVM) = .error fault (q.1, q.2.localVM) ∧
          Received c q.2 (Transfer.copyable source objs (t, c.localVM))) := by
  induction objs generalizing t c with
  | nil => exact ⟨[], rfl, .nil h c.localVM⟩
  | cons obj rest ih =>
      refine Ends.bind (Ends.focus ?_)
      cases hcopy : Transfer.copy source obj (t, c.localVM) with
      | error fault part =>
          refine Ends.of_error hcopy (.inr ⟨Transfer.copyAll_cons_first hcopy, ?_⟩)
          rw [Transfer.copyable, hcopy]
          exact .nil h part.2
      | ok image part =>
          refine Ends.of_ok hcopy (Ends.bind ?_)
          refine Ends.mono (ends_push_image (c := { c with localVM := part.2 }) h part.1 image)
            (fun _ q hq => ?_) fun fault q hq => ?_
          · obtain ⟨hpart, hmemory, hpushed⟩ := hq
            have hstart : (q.1, q.2.localVM) = part := Prod.ext hpart hmemory
            have hcount : q.2.stackSet.operands.count = c.stackSet.operands.count + 1 :=
              Stack.count_of_concat hpushed.toList
            have hfirst : Received c q.2 [image] := (Received.nil h part.2).append hpushed
            refine Ends.mono (ih q.1 hpushed.operands_wf) ?_ ?_
            · rintro _ r ⟨images, himages, hr⟩
              rw [hstart] at himages
              exact ⟨image :: images, Transfer.copyAll_cons_ok hcopy himages, hfirst.append hr⟩
            · rintro fault r (⟨hfault, hfull⟩ | ⟨hlater, hr⟩)
              · refine .inl ⟨hfault.trans hfirst.overflow, ?_⟩
                rw [hfirst.limit, hcount] at hfull
                rw [List.length_cons]
                omega
              · rw [hstart] at hlater hr
                refine .inr ⟨Transfer.copyAll_cons_later hcopy hlater, ?_⟩
                rw [Transfer.copyable, hcopy]
                exact hfirst.append hr
          · obtain ⟨hfault, hfull⟩ := hq
            refine .inl ⟨hfault, ?_⟩
            rw [List.length_cons]
            exact Nat.lt_of_le_of_lt hfull (by simp only; omega)

end Action

namespace Session

variable {ν : Type} {s t : Session ν}

/-! ## The native -/

/-- What a delivery copies into the caller's local memory. -/
def deliveries (s : Session ν) (target : Context) :
    EStateM.Result Fault (Transfer × Memory) (List Object) :=
  Transfer.copyAll target.localVM target.stackSet.operands.toList
    (Transfer.empty, s.context.localVM)

/-- The images that are on the caller's stack when a delivery ends. -/
def delivered (s : Session ν) (target : Context) : List Object :=
  Transfer.copyable target.localVM target.stackSet.operands.toList
    (Transfer.empty, s.context.localVM)

/-- The mark and the operands of the finished context fit above `count` operands. -/
def FitsAbove (s : Session ν) (count : Nat) (target : Context) : Prop :=
  count + 1 + target.stackSet.operands.count ≤ s.context.stackSet.operands.limit

/-- The three ends of a delivery: all operands arrive and the finished context is released; there
is no room, and nothing happens; or a copy fails, and the mark and the copies before it stay. -/
lemma ends_deliver (h : s.context.stackSet.operands.WellFormed) (target : Context) :
    Ends (Action.deliver target) s
      (fun _ t => s.FitsAbove s.context.stackSet.operands.count target ∧
        ∃ images q d, s.deliveries target = .ok images q ∧ d.localVM = q.2 ∧
          Action.Received s.context d (Object.mark :: images) ∧
          t = { s with
            scheduler := s.scheduler.update target.id Context.released
            context := { d with waitingOn := none } })
      fun fault t =>
        (¬ s.FitsAbove s.context.stackSet.operands.count target ∧ fault = .stackOverflow ∧ t = s) ∨
        (s.FitsAbove s.context.stackSet.operands.count target ∧
          ∃ q d, s.deliveries target = .error fault q ∧
            Action.Received s.context d (Object.mark :: s.delivered target) ∧
            t = { s with context := d }) := by
  refine Ends.bind (Ends.get ?_)
  dsimp only
  split
  · next hfull => exact .inl ⟨Nat.not_le.mpr hfull, rfl, rfl⟩
  next hfits =>
    have hfits : s.FitsAbove s.context.stackSet.operands.count target := Nat.le_of_not_lt hfits
    rw [FitsAbove] at hfits ⊢
    obtain ⟨operands, hpush, hwf, hlist, -⟩ :=
      Stack.push_run h (by omega) Object.mark
    obtain ⟨hlimit, hoverflow⟩ := Stack.limit_push hpush
    have hmark : Action.Received s.context (s.setOperands operands).context [Object.mark] :=
      ⟨rfl, hwf, hlist, hlimit, hoverflow⟩
    have hcount := Stack.count_of_concat hlist
    refine Ends.bind (Ends.of_ok (onOperands_ok hpush) (Ends.bind (Ends.focus ?_)))
    refine Ends.mono (Action.ends_receive target.localVM target.stackSet.operands.toList
      Transfer.empty (c := (s.setOperands operands).context) hwf) ?_ ?_
    · rintro _ q ⟨images, himages, hq⟩
      exact ⟨hfits, images, _, q.2, himages, rfl, hmark.append hq, rfl⟩
    · rintro fault q (⟨-, hfull⟩ | ⟨hcopy, hq⟩)
      · exfalso
        rw [Stack.length_toList] at hfull
        have hfull : operands.limit < operands.count + target.stackSet.operands.count := hfull
        omega
      · exact .inr ⟨hfits, _, q.2, hcopy, hmark.append hq, rfl⟩

/-! ## The dispatch -/

/-- A handle that names a context fits the operator's signature. -/
lemma accepts_of_names {handle : Object} {id : Nat} (h : handle.asContext? = some id) :
    (Pattern.type .context).accepts handle = true := by
  rw [Object.asContext?, Object.payload?] at h
  split_ifs at h with hty
  exact beq_iff_eq.mpr hty

/-- `join` is about to be dispatched on the handle of a finished context. -/
structure ReadyToJoin [NativeSet ν] (s : Session ν) (opcode : Nat) (below : List Object)
    (handle : Object) (target : Context) : Prop where
  offered : s.Offers opcode (.type .context) 0 .join
  operands : s.context.stackSet.operands.WellFormed
  hold : s.context.stackSet.hold.WellFormed
  top : s.context.stackSet.operands.toList = below ++ [handle]
  names : handle.asContext? = some target.id
  found : s.scheduler.find? target.id = some target
  finished : target.state = .zombie

/-- A dispatch has failed and left the operands as given.  If the operator was the object being
executed, then its argument can be given back. -/
structure Fails (s : Session ν) (opcode : Nat) (handle : Object) (operands : List Object)
    (fault : Fault) (t : Session ν) : Prop where
  operands : t.context.stackSet.operands.toList = operands
  scheduler : t.scheduler = s.scheduler
  recoverable : s.context.current.asOpcode? = some opcode → fault.isControl = false →
    t.context.stackSet.operands.WellFormed ∧
    t.context.stackSet.operands.limit = s.context.stackSet.operands.limit ∧
    t.context.restoreArity = some 1 ∧ ∃ held, t.context.stackSet.hold.toList = held ++ [handle]

/-- A native that fails with only operands and local memory changed. -/
lemma fails_of_received {opcode : Nat} {below : List Object} {handle : Object}
    {operands hold : Stack} (hmoved : s.Moved below handle operands hold) {body : Action ν Unit}
    {fault : Fault} {d : Context} {images : List Object}
    (hreceived : Action.Received (s.holding opcode operands hold).context d images)
    (hbody : body (s.holding opcode operands hold) =
      .error fault { s.holding opcode operands hold with context := d }) :
    ∃ t, releasingHold 1 body (s.holding opcode operands hold) = .error fault t ∧
      s.Fails opcode handle (below ++ images) fault t := by
  have hhold : d.stackSet.hold = hold := by
    rw [hreceived.same]
    rfl
  have hlist : d.stackSet.operands.toList = below ++ images := by
    rw [hreceived.toList]
    exact congrArg (· ++ images) hmoved.below
  have hcount := (Stack.slot_last hmoved.held).1
  by_cases hkept : fault.isControl = false ∧ s.context.current.asOpcode? = some opcode
  · have hrestore : d.restoreArity = some 1 := by
      rw [hreceived.same]
      exact if_pos hkept.2
    refine ⟨_, releasingHold_kept hbody hkept.1 ?_, hlist, rfl, fun _ _ => ?_⟩
    · rw [hrestore]
      rfl
    · exact ⟨hreceived.operands_wf, hreceived.limit.trans hmoved.limit, hrestore, _,
        hhold.symm ▸ hmoved.held⟩
  · obtain ⟨hold', hrelease⟩ := releasingHold_error hbody (by rw [hhold]; exact hmoved.hold_wf)
      (by rw [hhold]; omega)
    exact ⟨_, hrelease, hlist, rfl, fun hcurrent hfault => absurd ⟨hfault, hcurrent⟩ hkept⟩

variable [NativeSet ν] {opcode : Nat} {below : List Object} {handle : Object} {target : Context}

/-- **The ends of a join of a finished context.** -/
lemma ends_dispatch_join (h : s.ReadyToJoin opcode below handle target) :
    Ends (dispatch opcode) s
      (fun _ t => s.HasRoom ∧ s.FitsAbove below.length target ∧ ∃ images q,
        s.deliveries target = .ok images q ∧ t.context.localVM = q.2 ∧
        t.context.stackSet.operands.toList = below ++ Object.mark :: images ∧
        t.scheduler = s.scheduler.update target.id Context.released)
      fun fault t =>
        (¬ s.HasRoom ∧ fault = .limitCheck ∧ t = s.cleared) ∨
        (s.HasRoom ∧ ¬ s.FitsAbove below.length target ∧ fault = .stackOverflow ∧
          s.Fails opcode handle below fault t) ∨
        (s.HasRoom ∧ s.FitsAbove below.length target ∧ (∃ q, s.deliveries target = .error fault q) ∧
          s.Fails opcode handle (below ++ Object.mark :: s.delivered target) fault t) := by
  obtain ⟨hfull, hruns⟩ := dispatch_offered h.offered nofun (Nat.zero_le 1)
    (accepts_of_names h.names) h.operands h.hold h.top
  by_cases hroom : s.HasRoom
  · obtain ⟨operands, hold, hmoved, hdispatch⟩ := hruns hroom
    have hjoin : Builtin.join.run [handle] (s.holding opcode operands hold) =
        Action.deliver target (s.holding opcode operands hold) := by
      show Action.join handle _ = _
      rw [Action.join, h.names]
      refine (bind_ok (t := s.holding opcode operands hold) rfl).trans ?_
      have hfound : (s.holding opcode operands hold).scheduler.find? target.id = some target :=
        h.found
      simp only [hfound, h.finished]
    have hcount : operands.count = below.length := by
      rw [← Stack.length_toList, hmoved.below]
    have hfits : (s.holding opcode operands hold).FitsAbove operands.count target ↔
        s.FitsAbove below.length target := by
      rw [FitsAbove, FitsAbove, hcount]
      exact iff_of_eq (congrArg (_ ≤ ·) hmoved.limit)
    have hends := ends_deliver (s := s.holding opcode operands hold) hmoved.operands_wf target
    rw [Ends] at hends
    rw [Ends, hdispatch]
    cases hresult : Action.deliver target (s.holding opcode operands hold) with
    | ok a t =>
        rw [hresult] at hends
        obtain ⟨hfit, images, q, d, hcopy, hmemory, hreceived, rfl⟩ := hends
        have hhold : d.stackSet.hold = hold := by
          rw [hreceived.same]
          rfl
        obtain ⟨hold', -, hheld, -, hrelease⟩ := releasingHold_ok (hjoin.trans hresult)
          (by rw [hhold]; exact hmoved.hold_wf) (by rw [hhold]; exact hmoved.held)
          List.length_singleton
        rw [hrelease]
        refine ⟨hroom, hfits.mp hfit, images, q, hcopy, hmemory, ?_, rfl⟩
        exact hreceived.toList.trans (congrArg (· ++ _) hmoved.below)
    | error fault t =>
        rw [hresult] at hends
        rcases hends with ⟨hfit, rfl, rfl⟩ | ⟨hfit, q, d, hcopy, hreceived, rfl⟩
        · have hnothing : Action.Received (s.holding opcode operands hold).context
              (s.holding opcode operands hold).context [] :=
            .nil hmoved.operands_wf s.context.localVM
          obtain ⟨u, hrelease, hfails⟩ := fails_of_received hmoved hnothing (hjoin.trans hresult)
          rw [hrelease]
          rw [List.append_nil] at hfails
          exact .inr (.inl ⟨hroom, mt hfits.mpr hfit, rfl, hfails⟩)
        · obtain ⟨u, hrelease, hfails⟩ := fails_of_received hmoved hreceived (hjoin.trans hresult)
          rw [hrelease]
          exact .inr (.inr ⟨hroom, hfits.mp hfit, ⟨q, hcopy⟩, hfails⟩)
  · exact Ends.of_error (hfull hroom) (.inl ⟨hroom, rfl, rfl⟩)

omit [NativeSet ν] in
/-- A failing context with nothing to give back adds the name of the error, if there is room. -/
lemma toList_fail {fault : Fault} (h : t.context.stackSet.operands.WellFormed)
    (hrestore : t.context.restoreArity = none) :
    (t.fail fault).context.stackSet.operands.toList =
      (t.context.stackSet.operands.toList ++
        [Object.name (t.names.intern fault.errorName).1]).take
          t.context.stackSet.operands.limit := by
  rw [← Stack.toList_finalState_push h, finalState]
  simp only [fail, hrestore]
  cases Stack.push (Object.name (t.names.intern fault.errorName).1)
    t.context.stackSet.operands <;> rfl

omit [NativeSet ν] in
/-- A failing context gives its argument back first. -/
lemma toList_fail_of_held {fault : Fault} (h : t.context.stackSet.operands.WellFormed)
    (hspace : t.context.stackSet.operands.count < t.context.stackSet.operands.limit)
    (hrestore : t.context.restoreArity = some 1) {held : List Object} {obj : Object}
    (hheld : t.context.stackSet.hold.toList = held ++ [obj]) :
    (t.fail fault).context.stackSet.operands.toList =
      (t.context.stackSet.operands.toList ++ [obj] ++
        [Object.name (t.names.intern fault.errorName).1]).take
          t.context.stackSet.operands.limit := by
  obtain ⟨operands, hpush, hwf, hlist, hlimit⟩ := Stack.push_run h hspace obj
  have hcount := (Stack.slot_last hheld).1
  have htop : t.context.stackSet.hold.topmost 1 = [obj] := by
    rw [Stack.topmost, hheld, hcount, Nat.add_sub_cancel, List.drop_left]
  have hback : giveBack 1 t.context.stackSet = { t.context.stackSet with operands } := by
    rw [giveBack, htop, Stack.pushAll, show (Stack.push obj >>= fun _ => Stack.pushAll [])
      t.context.stackSet.operands = .ok () operands from bind_ok hpush]
  rw [← hlist, ← hlimit, ← Stack.toList_finalState_push hwf, finalState]
  simp only [fail, hrestore, hback]
  cases Stack.push (Object.name (t.names.intern fault.errorName).1) operands <;> rfl

/-! ## All or nothing -/

/-- If a join fails, the caller has lost at most the handle and the finished context is as it was.
If the join was the object being executed, then failing gives the handle back and adds the name of
the error, if there is room for it. -/
structure JoinsAllOrNothing (s : Session ν) (opcode : Nat) (below : List Object) (handle : Object)
    (target : Context) : Prop where
  untouched : ∀ fault t, dispatch opcode s = .error fault t → fault.isControl = false →
    (t.context.stackSet.operands.toList = below ∨
      t.context.stackSet.operands.toList = below ++ [handle]) ∧
    t.scheduler.find? target.id = some target
  given_back : s.context.current.asOpcode? = some opcode →
    ∀ fault t, dispatch opcode s = .error fault t → fault.isControl = false →
      (t.fail fault).context.stackSet.operands.toList =
        (below ++ [handle] ++ [Object.name (t.names.intern fault.errorName).1]).take
          s.context.stackSet.operands.limit

/-- There is room for the handle where it was. -/
lemma length_below_lt (h : s.ReadyToJoin opcode below handle target) :
    below.length < s.context.stackSet.operands.limit := by
  have hle := h.operands.count_le
  rw [(Stack.slot_last h.top).1] at hle
  omega

/-- A copy that fails leaves a mark behind. -/
lemma JoinsAllOrNothing.copies (hall : s.JoinsAllOrNothing opcode below handle target)
    (h : s.ReadyToJoin opcode below handle target) (hroom : s.HasRoom)
    (hfits : s.FitsAbove below.length target) {fault : Fault} {q : Transfer × Memory}
    (hcopy : s.deliveries target = .error fault q) : fault.isControl = true := by
  by_contra hfault
  rw [Bool.not_eq_true] at hfault
  have hends := ends_dispatch_join h
  rw [Ends] at hends
  cases hrun : dispatch opcode s with
  | ok a t =>
      rw [hrun] at hends
      obtain ⟨-, -, images, q', hcopy', -⟩ := hends
      rw [hcopy] at hcopy'
      contradiction
  | error fault' t =>
      rw [hrun] at hends
      rcases hends with ⟨hno, -⟩ | ⟨-, hno, -⟩ | ⟨-, -, ⟨q', hcopy'⟩, hfails⟩
      · exact hno hroom
      · exact hno hfits
      · rw [hcopy] at hcopy'
        cases hcopy'
        rcases (hall.untouched fault t hrun hfault).1 with hlist | hlist
        · simp [hfails.operands] at hlist
        · -- a mark is no handle
          rw [hfails.operands, List.append_cancel_left_eq] at hlist
          have hnames := h.names
          rw [← (List.cons.inj hlist).1] at hnames
          contradiction

/-- If every operand is copied, then only want of room makes a join fail. -/
lemma joinsAllOrNothing_of_copies (h : s.ReadyToJoin opcode below handle target)
    (hcopies : s.HasRoom → s.FitsAbove below.length target →
      ∀ fault q, s.deliveries target = .error fault q → fault.isControl = true) :
    s.JoinsAllOrNothing opcode below handle target := by
  have hends := ends_dispatch_join h
  have hlength := length_below_lt h
  rw [Ends] at hends
  refine ⟨fun fault t hrun hfault => ?_, fun hcurrent fault t hrun hfault => ?_⟩
  · rw [hrun] at hends
    rcases hends with ⟨-, -, rfl⟩ | ⟨-, -, -, hfails⟩ | ⟨hroom, hfits, ⟨q, hcopy⟩, -⟩
    · exact ⟨.inr h.top, h.found⟩
    · exact ⟨.inl hfails.operands, hfails.scheduler ▸ h.found⟩
    · rw [hcopies hroom hfits fault q hcopy] at hfault
      contradiction
  · rw [hrun] at hends
    rcases hends with ⟨-, -, rfl⟩ | ⟨-, -, -, hfails⟩ | ⟨hroom, hfits, ⟨q, hcopy⟩, -⟩
    · rw [toList_fail (t := s.cleared) h.operands rfl, ← h.top]
      rfl
    · obtain ⟨hwf, hlimit, hrestore, held, hheld⟩ := hfails.recoverable hcurrent hfault
      have hcount : t.context.stackSet.operands.count = below.length := by
        rw [← Stack.length_toList, hfails.operands]
      rw [toList_fail_of_held hwf (by omega) hrestore hheld, hfails.operands, hlimit]
    · rw [hcopies hroom hfits fault q hcopy] at hfault
      contradiction

/-- Want of room on the operand stack is noticed. -/
lemma dispatch_join_full (h : s.ReadyToJoin opcode below handle target) (hroom : s.HasRoom)
    (hfull : ¬ s.FitsAbove below.length target) : ∃ t, dispatch opcode s = .error .stackOverflow t := by
  have hends := ends_dispatch_join h
  rw [Ends] at hends
  cases hrun : dispatch opcode s with
  | ok _ t =>
      rw [hrun] at hends
      exact absurd hends.2.1 hfull
  | error fault t =>
      rw [hrun] at hends
      rcases hends with ⟨hno, -⟩ | ⟨-, -, rfl, -⟩ | ⟨-, hfits, -⟩
      · exact absurd hroom hno
      · exact ⟨t, rfl⟩
      · exact absurd hfits hfull

/-- **When a join is all or nothing.**  For every caller and every finished context: exactly if, where
there is room for the operands, none of them fails to be copied.  Otherwise the mark and the copies
that were made stay on the caller's stack. -/
theorem joins_all_or_nothing_iff (h : s.ReadyToJoin opcode below handle target) :
    s.JoinsAllOrNothing opcode below handle target ↔
      (s.HasRoom → s.FitsAbove below.length target →
        ∀ fault q, s.deliveries target = .error fault q → fault.isControl = true) :=
  ⟨fun hall hroom hfits _ _ hcopy => hall.copies h hroom hfits hcopy,
    joinsAllOrNothing_of_copies h⟩

end Session

/-! ## A caller with room for one more entity -/

/-- Settings with room for six entities in each memory. -/
def Settings.narrow : Settings := { Settings.standard with initialEntities := 2, maxEntities := 6 }

/-- A fresh memory with room for six entities. -/
def Memory.narrow (bank : Bank) : Memory :=
  match withBacking bank .anonymous Settings.narrow with
  | .ok m => m
  | .error _ => vacant

/-- A machine with `join` and `fork` as its operators. -/
def Machine.pair : Machine Builtin where
  settings := Settings.narrow
  globalVM := (Memory.narrow .globalVM).afterAll
    [.tableAlloc (2 * entrySize) (Tag.ofKind .system),
      .tableAlloc signatureSize (Tag.ofKind .system),
      .tableAlloc signatureSize (Tag.ofKind .system),
      .put 1 0 (OperatorEntry.encode ⟨0, 2, 1⟩),
      .put 1 entrySize (OperatorEntry.encode ⟨1, 3, 1⟩),
      .put 2 0 (Signature.ofPatterns [.type .context] 0 0).encode,
      .put 3 0 (Signature.ofPatterns [.proc] 1 1).encode]
  names := Names.empty
  operators := ⟨1, 2, [(0, 0), (1, 1)], #[.join, .fork]⟩
  system := ⟨2, 3, 0⟩

namespace Session

/-- The first context runs on the pair machine and meets the second one. -/
def meeting (localVM : Memory) (operands : List Object) (other : Context) : Session Builtin :=
  { Machine.pair with
    scheduler := ⟨[other], [other.id].filter fun _ => other.state.isActive, 3⟩
    output := ⟨"", true⟩
    context :=
      { id := 1
        state := .run
        localVM
        stackSet := { StackSet.create Settings.narrow with operands := Stack.ofObjects operands }
        current := Object.operator 0
        restoreArity := none
        waitingOn := none } }

/-- The second context, finished, with two strings as its operands. -/
def finishedPair : Context :=
  { id := 2
    state := .zombie
    localVM := (Memory.narrow .localVM).afterAll [.newString [97] [], .newString [98] []]
    stackSet := { StackSet.create Settings.narrow with
      operands := Stack.ofObjects
        [Object.composite .string .localVM 1 0 1, Object.composite .string .localVM 2 0 1] }
    current := Object.null
    restoreArity := none
    waitingOn := none }

lemma toList_finishedPair : finishedPair.stackSet.operands.toList =
    [Object.composite .string .localVM 1 0 1, Object.composite .string .localVM 2 0 1] :=
  (Stack.ofObjects_run (by decide)).2.1

lemma ok_of_toOption {α : Type} {x : Except Fault α} {a : α} (h : x.toOption = some a) :
    x = .ok a := by
  cases x with
  | ok b => rw [Option.some.inj h]
  | error fault => contradiction

lemma offers_meeting (localVM : Memory) (operands : List Object) (other : Context) :
    (meeting localVM operands other).Offers 0 (.type .context) 0 .join := by
  have hread : (Machine.pair.operators.signatures Machine.pair.globalVM 0).toOption =
      some [Signature.ofPatterns [.type .context] 0 0] := by decide +kernel
  exact ⟨0, .join, ok_of_toOption hread, rfl, fun _ _ => rfl⟩

lemma readyToJoin_meeting (localVM : Memory) (below : List Object) (h : below.length < 8)
    (other : Context) (hid : other.id = 2) (hfinished : other.state = .zombie) :
    (meeting localVM (below ++ [Object.context 2]) other).ReadyToJoin 0 below (Object.context 2)
      other := by
  have hlength : (below ++ [Object.context 2]).length ≤ 8 := by
    rw [List.length_append]
    exact h
  obtain ⟨hwf, hlist, -⟩ := Stack.ofObjects_run hlength
  refine ⟨offers_meeting _ _ _, hwf, Stack.wellFormed_create (by decide) _ _, hlist, ?_, ?_, hfinished⟩
  · rw [hid]
    rfl
  · show [other].find? (fun c => c.id == other.id) = some other
    simp

/-- Operands that leave room for two more. -/
def sixOperands : List Object := List.replicate 6 (Object.int 7)

/-- A caller that has room for the two operands of the finished context, but not for the mark below them.  Its
turn ends with the handle back in its place and the name of the error above it. -/
theorem joins_all_or_nothing_without_room :
    (meeting (Memory.narrow .localVM) (sixOperands ++ [Object.context 2]) finishedPair).ReadyToJoin 0
      sixOperands (Object.context 2) finishedPair ∧
    (meeting (Memory.narrow .localVM) (sixOperands ++ [Object.context 2]) finishedPair).JoinsAllOrNothing 0
      sixOperands (Object.context 2) finishedPair ∧
    ∃ t, dispatch 0 (meeting (Memory.narrow .localVM) (sixOperands ++ [Object.context 2]) finishedPair) =
        .error .stackOverflow t ∧
      t.scheduler.find? 2 = some finishedPair ∧
      (t.fail .stackOverflow).context.stackSet.operands.toList =
        sixOperands ++ [Object.context 2, Object.name (t.names.intern "stackoverflow").1] := by
  let s := meeting (Memory.narrow .localVM) (sixOperands ++ [Object.context 2]) finishedPair
  have hready : s.ReadyToJoin 0 sixOperands (Object.context 2) finishedPair :=
    readyToJoin_meeting (Memory.narrow .localVM) sixOperands (by decide) finishedPair rfl rfl
  have hlimit : s.context.stackSet.operands.limit = 8 :=
    (Stack.ofObjects_run (show (sixOperands ++ [Object.context 2]).length ≤ 8 by decide)).2.2
  have hroom : s.HasRoom := show 0 < 500 by decide
  have hfull : ¬ s.FitsAbove sixOperands.length finishedPair := by
    rw [FitsAbove, ← Stack.length_toList, toList_finishedPair, hlimit]
    decide
  have hall : s.JoinsAllOrNothing 0 sixOperands (Object.context 2) finishedPair :=
    (joins_all_or_nothing_iff hready).mpr fun _ hfits => absurd hfits hfull
  refine ⟨hready, hall, ?_⟩
  obtain ⟨t, hrun⟩ := dispatch_join_full hready hroom hfull
  have hback := hall.given_back rfl _ t hrun rfl
  rw [hlimit] at hback
  exact ⟨t, hrun, (hall.untouched _ t hrun rfl).2, hback⟩

/-- A local memory with room for one more entity. -/
def crowded : Memory :=
  (Memory.narrow .localVM).afterAll
    [.newString [97] [], .newString [98] [], .newString [99] [], .newString [100] []]

/-- The mark and the copy of the first string stay on the stack, because there is no room for a copy
of the second. -/
theorem join_leaves_mark_behind :
    (meeting crowded [Object.int 7, Object.context 2] finishedPair).ReadyToJoin 0
      [Object.int 7] (Object.context 2) finishedPair ∧
    ¬ (meeting crowded [Object.int 7, Object.context 2] finishedPair).JoinsAllOrNothing 0
      [Object.int 7] (Object.context 2) finishedPair := by
  have hready := readyToJoin_meeting crowded [Object.int 7] (by decide) finishedPair rfl rfl
  refine ⟨hready, fun hall => ?_⟩
  have hlength : [Object.int 7, Object.context 2].length ≤ 8 := by decide
  have hlimit := (Stack.ofObjects_run hlength).2.2
  have hfits : (meeting crowded [Object.int 7, Object.context 2] finishedPair).FitsAbove 1
      finishedPair := by
    rw [FitsAbove, ← Stack.length_toList, toList_finishedPair]
    exact hlimit.symm ▸ show 1 + 1 + 2 ≤ 8 by decide
  have hfault : Transfer.fault? (Transfer.copyAll finishedPair.localVM
      finishedPair.stackSet.operands.toList) (Transfer.empty, crowded) = some .vmFull := by
    decide +kernel
  obtain ⟨q, hcopy⟩ := Transfer.error_of_fault hfault
  exact nomatch hall.copies hready (show 0 < 500 by decide) hfits hcopy

end Session

end PostScriptCore
