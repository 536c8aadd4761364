import PostScriptCore.Proofs.Transfer.Copying

/-!
# A copy is isomorphic to its source

The loop over the pending copies ends, because every entity of the source becomes pending once.
What it leaves behind is an image of everything reachable, slot by slot, beside what the target had.

* `Drains`, `CopiesTo` — the loop without a bound on its rounds, and a copy made with it.
* `Transfer.drains_drain` — the bound of `Transfer.drain` is never what ends it.
* `Replica` — what one memory holds of the entities of another one.
* `Transfer.copy_replicates` — every copy ends, and what it made is a replica.
-/

namespace PostScriptCore

open Memory

namespace Transfer

/-! ## The loop -/

/-- The outcome of redirecting pending copies until none is left. -/
inductive Drains (source : Memory) :
    Transfer × Memory → EStateM.Result Fault (Transfer × Memory) Unit → Prop
  | done {s : Transfer × Memory} (hpending : s.1.pending = []) : Drains source s (.ok () s)
  | failed {s s' : Transfer × Memory} {f : Nat} {rest : List Nat} {fault : Fault}
      (hpending : s.1.pending = f :: rest)
      (hvisit : visit source f ({ s.1 with pending := rest }, s.2) = .error fault s') :
      Drains source s (.error fault s')
  | visited {s s' : Transfer × Memory} {f : Nat} {rest : List Nat}
      {result : EStateM.Result Fault (Transfer × Memory) Unit} (hpending : s.1.pending = f :: rest)
      (hvisit : visit source f ({ s.1 with pending := rest }, s.2) = .ok () s')
      (hrest : Drains source s' result) : Drains source s result

/-- The outcome of a copy that drains all pending copies. -/
inductive CopiesTo (source : Memory) (obj : Object) (s : Transfer × Memory) :
    EStateM.Result Fault (Transfer × Memory) Object → Prop
  | unmapped {s' : Transfer × Memory} {fault : Fault} (hmap : mapObject source obj s = .error fault s') :
      CopiesTo source obj s (.error fault s')
  | failed {s' s'' : Transfer × Memory} {image : Object} {fault : Fault}
      (hmap : mapObject source obj s = .ok image s') (hdrain : Drains source s' (.error fault s'')) :
      CopiesTo source obj s (.error fault s'')
  | finished {s' s'' : Transfer × Memory} {image : Object}
      (hmap : mapObject source obj s = .ok image s') (hdrain : Drains source s' (.ok () s'')) :
      CopiesTo source obj s (.ok image s'')

variable {source base : Memory} {Expected : Nat → Prop} {s s' : Transfer × Memory} {e f : Nat}
  {row : Row} {obj : Object}

lemma drain_of_nil (steps : Nat) (hpending : s.1.pending = []) :
    drain source steps s = .ok () s := by
  cases steps with
  | zero => rfl
  | succ steps =>
      rw [drain, bind_ok (rfl : (get : TransferM (Transfer × Memory)) s = .ok s s), hpending]
      rfl

lemma drain_of_cons (steps : Nat) {rest : List Nat} (hpending : s.1.pending = f :: rest) :
    drain source (steps + 1) s =
      (visit source f >>= fun _ => drain source steps) ({ s.1 with pending := rest }, s.2) := by
  rw [drain, bind_ok (rfl : (get : TransferM (Transfer × Memory)) s = .ok s s), hpending]
  rw [visit, bind_assoc]
  rfl

/-- No more entities are copied than the source has. -/
lemma Copying.length_copied_le {visiting : Option (Nat × Nat)}
    (h : Copying source base Expected visiting s) : s.1.copied.length ≤ source.entityCount := by
  have hsub : s.1.copied.map Prod.fst ⊆ List.range source.entityCount := by
    intro e he
    cases himage : s.1.image? e with
    | some f =>
        obtain ⟨row, cell, hentry⟩ := h.entry e f himage
        exact List.mem_range.mpr (row_lt (row_eq_ok_iff.mp hentry.hasRow))
    | none =>
        obtain ⟨⟨e', g⟩, hpair, rfl⟩ := List.mem_map.mp he
        rw [image?, List.lookup_eq_none_iff] at himage
        simpa using himage _ hpair
  simpa using (h.keys.subperm hsub).length_le

/-- **The rounds that `drain` is given suffice**: it ends as the loop without a bound does. -/
lemma drains_drain (hclosed : Closed source Expected) (steps : Nat)
    (h : Copying source base Expected none s)
    (hsteps : source.entityCount + s.1.pending.length ≤ steps + s.1.copied.length) :
    Drains source s (drain source steps s) := by
  induction steps generalizing s with
  | zero =>
      have hcopied := h.length_copied_le
      exact .done (List.length_eq_zero_iff.mp (by omega))
  | succ steps ih =>
      cases hpending : s.1.pending with
      | nil =>
          rw [drain_of_nil _ hpending]
          exact .done hpending
      | cons f rest =>
          have hvisit := ends_visit hclosed h hpending
          rw [drain_of_cons steps hpending]
          rw [Ends] at hvisit
          cases hrun : visit source f ({ s.1 with pending := rest }, s.2) with
          | error fault s' =>
              rw [bind_error hrun]
              exact .failed hpending hrun
          | ok _ s' =>
              rw [hrun] at hvisit
              obtain ⟨hcopying, honward⟩ := hvisit
              -- every copy that became pending meanwhile was also registered
              have hwork := honward.work
              rw [hpending, List.length_cons] at hsteps
              rw [bind_ok hrun]
              exact .visited hpending hrun (ih hcopying (by dsimp only at hwork; omega))

/-- **The loop keeps the invariant**, and ends well only when nothing is pending. -/
lemma Drains.keeps (hclosed : Closed source Expected)
    {result : EStateM.Result Fault (Transfer × Memory) Unit} (hdrains : Drains source s result)
    (h : Copying source base Expected none s) :
    (∀ s', result = .ok () s' →
      Copying source base Expected none s' ∧ Onward s s' ∧ s'.1.pending = []) ∧
    ∀ fault s', result = .error fault s' → Excused source base Expected fault s' := by
  induction hdrains with
  | @done s hpending =>
      refine ⟨fun s' he => ?_, fun _ _ he => (nomatch he)⟩
      injection he with _ he
      subst he
      exact ⟨h, .refl s, hpending⟩
  | @failed s s' f rest fault hpending hvisit =>
      refine ⟨fun _ he => (nomatch he), fun fault' _ he => ?_⟩
      have hends := ends_visit hclosed h hpending
      rw [Ends, hvisit] at hends
      injection he with he hs
      subst he hs
      exact hends
  | @visited s s' f rest result hpending hvisit hrest ih =>
      have hends := ends_visit hclosed h hpending
      rw [Ends, hvisit] at hends
      obtain ⟨hcopying, honward⟩ := hends
      obtain ⟨hok, herror⟩ := ih hcopying
      refine ⟨fun s'' he => ?_, herror⟩
      obtain ⟨hlast, honward', hnone⟩ := hok s'' he
      exact ⟨hlast, (Onward.popped hpending).trans (honward.trans honward'), hnone⟩

/-- **A copy keeps the invariant** and ends as it does without a bound. -/
lemma ends_copy (hclosed : Closed source Expected) (h : Copying source base Expected none s)
    (hobj : ∀ e, obj.localEntity? = some e → Expected e) :
    CopiesTo source obj s (copy source obj s) ∧
    Ends (copy source obj) s
      (fun image s' => Copying source base Expected none s' ∧ Onward s s' ∧ s'.1.pending = [] ∧
        s'.1.Sends obj image)
      (Excused source base Expected) := by
  have hmap := ends_mapObject h fun e he => .inr (hobj e he)
  rw [Ends] at hmap
  cases hrun : mapObject source obj s with
  | error fault s' =>
      rw [hrun] at hmap
      have hcopy : copy source obj s = .error fault s' := bind_error hrun
      rw [Ends, hcopy]
      exact ⟨.unmapped hrun, hmap⟩
  | ok image s' =>
      rw [hrun] at hmap
      obtain ⟨hcopying, honward, hsends, -⟩ := hmap
      have hdrains := drains_drain hclosed (source.entityCount + s'.1.pending.length) hcopying
        (Nat.le_add_right _ _)
      obtain ⟨hok, herror⟩ := hdrains.keeps hclosed hcopying
      have hcopy : copy source obj s = (do
          drain source (source.entityCount + s'.1.pending.length)
          return image : TransferM Object) s' := bind_ok hrun
      rw [Ends, hcopy]
      cases hdrain : drain source (source.entityCount + s'.1.pending.length) s' with
      | error fault s'' =>
          rw [hdrain] at hdrains
          rw [bind_error hdrain]
          exact ⟨.failed hrun hdrains, herror fault s'' hdrain⟩
      | ok _ s'' =>
          rw [hdrain] at hdrains
          rw [bind_ok hdrain]
          obtain ⟨hlast, honward', hnone⟩ := hok s'' hdrain
          exact ⟨.finished hrun hdrains, hlast, honward.trans honward', hnone,
            hsends.mono honward'.images⟩

/-- Nothing has been copied into a memory in working order. -/
lemma copying_empty {target : Memory} (h : Representable target) :
    Copying source target Expected none (Transfer.empty, target) where
  hosts := (Hosts.of_representable h).mono fun _ => ⟨fun h => h.elim, fun ⟨_, h⟩ => nomatch h⟩
  keys := List.nodup_nil
  injective := fun _ _ _ h => nomatch h
  expected := .inr fun _ _ h => nomatch h
  entry := fun _ _ h => nomatch h
  filed := ⟨id, ⟨fun _ _ h => (nomatch h.1), fun _ _ _ _ h => (nomatch h.1)⟩⟩
  nodup := List.nodup_nil
  pending := fun _ h => nomatch h
  visited := fun _ _ h => nomatch h

lemma ends_copyAll (hclosed : Closed source Expected) {objs : List Object}
    (h : Copying source base Expected none s) (hpending : s.1.pending = [])
    (hobjs : ∀ obj ∈ objs, ∀ e, obj.localEntity? = some e → Expected e) :
    Ends (copyAll source objs) s
      (fun images s' => Copying source base Expected none s' ∧ Onward s s' ∧ s'.1.pending = [] ∧
        List.Forall₂ s'.1.Sends objs images)
      (Excused source base Expected) := by
  induction objs generalizing s with
  | nil => exact Ends.pure ⟨h, .refl s, hpending, .nil⟩
  | cons obj rest ih =>
      rw [List.forall_mem_cons] at hobjs
      refine Ends.bind ((ends_copy hclosed h hobjs.1).2.mono ?_ fun _ _ hfault => hfault)
      rintro image s₁ ⟨hcopying, honward, hnone, hsends⟩
      refine Ends.bind ((ih hcopying hnone hobjs.2).mono ?_ fun _ _ hfault => hfault)
      rintro images s₂ ⟨hlast, honward', hnone', hrest⟩
      exact Ends.pure ⟨hlast, honward.trans honward', hnone',
        .cons (hsends.mono honward'.images) hrest⟩

lemma relocated_of_sends {t : Transfer} {objs images : List Object}
    (h : List.Forall₂ t.Sends objs images) :
    images = objs.map (Object.relocated fun e => (t.image? e).getD 0) := by
  induction h with
  | nil => rfl
  | cons hsends _ ih => rw [List.map_cons, ← ih, ← hsends.relocated]

/-! ## What a transfer leaves behind -/

/-- A copy that is not pending is finished. -/
lemma Entry.finished {cell : Cell} (h : Entry source base none s e f row cell)
    (hpending : s.1.pending = []) (hkind : row.tag.kind.holdsObjects = true) :
    Worked source s.1 e row cell.bytes none := by
  have hworked := h.slots hkind
  rw [stage, if_neg (by rw [hpending]; exact List.not_mem_nil)] at hworked
  exact hworked

/-- A slot of a finished copy is the image of the source's slot. -/
lemma Copying.slot_sent (h : Copying source base Expected none s) (hpending : s.1.pending = [])
    (himage : s.1.image? e = some f) (hrow : source.row e = .ok row)
    (hkind : row.tag.kind.holdsObjects = true) {index : Nat}
    (hfit : index * objectSize + objectSize ≤ row.size) :
    ∃ obj image, source.slot? e index = some obj ∧ s.1.Sends obj image ∧
      s.2.slot? f index = some image := by
  obtain ⟨row', cell, hentry⟩ := h.entry e f himage
  obtain rfl : row = row' := Except.ok.inj (hrow.symm.trans hentry.hasRow)
  obtain ⟨count, hlength, hslots⟩ := hentry.finished hpending hkind
  have hsize := hentry.size
  have hslot := hslots index (Nat.le_trans hfit hsize) (.inr hfit)
  rw [if_pos (by simp only [objectSize] at hfit hlength; omega)] at hslot
  obtain ⟨obj, image, hraw, hsends, hread⟩ := hslot
  rw [rawSlot, if_pos hfit] at hraw
  exact ⟨obj, image, hraw, hsends,
    (slot?_of_bytes (bytes_cell h.hosts.sound hentry.hasCell) index).trans hread⟩

/-- **Everything reachable has a copy** once nothing is pending. -/
lemma Copying.reached (h : Copying source base Expected none s) (hpending : s.1.pending = [])
    {roots : List Object} (hroots : ∀ obj ∈ roots, ∃ image, s.1.Sends obj image)
    (he : Reached source roots e) : ∃ f, s.1.image? e = some f := by
  induction he with
  | root hobj he =>
      obtain ⟨image, hsends⟩ := hroots _ hobj
      exact hsends.image he
  | slot _ hrow hkind hslot he' ih =>
      obtain ⟨f, himage⟩ := ih
      obtain ⟨obj, image, hobj, hsends, -⟩ :=
        h.slot_sent hpending himage hrow hkind (slot?_le hrow hslot)
      obtain rfl := Option.some.inj (hslot.symm.trans hobj)
      exact hsends.image he'

end Transfer

/-! ## Replicas -/

/-- The memory `m` holds a replica of what `roots` reach in `source`, beside everything that was
live in `target`. -/
structure Replica (source target m : Memory) (roots : List Object) (f : Nat → Nat) : Prop where
  injective : ∀ e e', Reached source roots e → Reached source roots e' → f e = f e' → e = e'
  fresh : ∀ e, Reached source roots e → ¬ Live target (f e)
  row : ∀ e, Reached source roots e → ∃ row copy, source.row e = .ok row ∧
    m.row (f e) = .ok copy ∧ copy.tag = row.tag ∧ row.size ≤ copy.size
  verbatim : ∀ e row, Reached source roots e → source.row e = .ok row →
    row.tag.kind.holdsObjects = false → row.tag.ownsResource = false → 0 < row.size →
    ∃ bytes, source.bytes e = .ok bytes ∧ m.bytesAt (f e) 0 row.size = .ok bytes
  slot : ∀ e row index, Reached source roots e → source.row e = .ok row →
    row.tag.kind.holdsObjects = true → index * objectSize + objectSize ≤ row.size →
    ∃ obj, source.slot? e index = some obj ∧ m.slot? (f e) index = some (obj.relocated f)
  /-- Every file has a slot of its own, which the target did not use. -/
  file : ∃ slots : Nat → Nat,
    (∀ e row, Reached source roots e → source.row e = .ok row → row.tag.ownsResource = true →
      ∃ handle, source.handleOf e = .ok handle ∧
        m.bytesAt (f e) 0 linkSize = .ok (wordBytes (slots e)) ∧
        m.resources.occupant? (slots e) = some handle ∧
        (slots e < wordBound → m.handleOf (f e) = .ok handle) ∧
        target.resources.occupant? (slots e) = none) ∧
    ∀ e e' row row', Reached source roots e → source.row e = .ok row →
      row.tag.ownsResource = true → Reached source roots e' → source.row e' = .ok row' →
      row'.tag.ownsResource = true → slots e = slots e' → e = e'
  kept : ∀ id, id ≠ 0 → Live target id → m.cell? id = target.cell? id
  open_kept : ∀ slot handle, target.resources.occupant? slot = some handle →
    m.resources.occupant? slot = some handle

lemma not_live_of_cell {m : Memory} {id : Nat} (hid : id ≠ 0)
    (h : ∀ cell, m.cell? id = some cell → cell.isFree = true) : ¬ Live m id := by
  rintro ⟨row, hrow, hlive⟩
  have hfree := h _ (cell?_of_row hid hrow)
  rw [Row.isFree] at hlive
  rw [Cell.isFree, hlive] at hfree
  contradiction

namespace Transfer

variable {source target m : Memory} {t : Transfer} {roots : List Object}

/-- What is read of the file of a copy. -/
lemma OwnFile.read {e f slot : Nat} (h : OwnFile source target m e f slot) (hs : Sound m) :
    ∃ handle, source.handleOf e = .ok handle ∧
      m.bytesAt f 0 linkSize = .ok (wordBytes slot) ∧ m.resources.occupant? slot = some handle ∧
      (slot < wordBound → m.handleOf f = .ok handle) ∧ target.resources.occupant? slot = none := by
  obtain ⟨handle, cell, hhandle, hcell, hword, hoccupied, hempty⟩ := h
  have hroom : linkSize ≤ cell.bytes.length := by
    have hlength := congrArg List.length hword
    rw [List.length_take, length_wordBytes] at hlength
    simp only [linkSize] at hlength ⊢
    omega
  refine ⟨handle, hhandle, ?_, hoccupied, fun hlt => ?_, hempty⟩
  · rw [bytesAt_cell hs hcell, if_pos (by omega), List.drop_zero, hword]
  · have hslot : m.resourceSlot f = .ok slot := by
      rw [resourceSlot, readWord_cell hs hcell hroom, hword, wordOfBytes_wordBytes hlt]
    exact (handleOf_eq_ok hslot).mpr hoccupied

/-- **A transfer with nothing pending leaves a replica.** -/
lemma Copying.replica {Expected : Nat → Prop} (h : Copying source target Expected none (t, m))
    (hpending : t.pending = []) (hroots : ∀ obj ∈ roots, ∃ image, t.Sends obj image) :
    Replica source target m roots fun e => (t.image? e).getD 0 := by
  have hsent : ∀ e, Reached source roots e →
      ∃ f row cell, t.image? e = some f ∧ (t.image? e).getD 0 = f ∧
        Entry source target none (t, m) e f row cell := by
    intro e he
    obtain ⟨f, himage⟩ := h.reached hpending hroots he
    obtain ⟨row, cell, hentry⟩ := h.entry e f himage
    exact ⟨f, row, cell, himage, by rw [himage]; rfl, hentry⟩
  have hs := h.hosts.sound
  refine
    { injective := fun e e' he he' hsame => ?_
      fresh := fun e he => ?_
      row := fun e he => ?_
      verbatim := fun e row he hrow hkind howns hpos => ?_
      slot := fun e row index he hrow hkind hfit => ?_
      file := ?_
      kept := ?_
      open_kept := h.hosts.files }
  · obtain ⟨f, _, _, himage, hf, -⟩ := hsent e he
    obtain ⟨f', _, _, himage', hf', -⟩ := hsent e' he'
    rw [hf, hf'] at hsame
    subst hsame
    exact h.injective e e' f himage himage'
  · obtain ⟨f, row, cell, himage, hf, hentry⟩ := hsent e he
    rw [hf]
    exact not_live_of_cell (ne_zero_of_cell hentry.hasCell) (h.hosts.held f ⟨e, himage⟩).2
  · obtain ⟨f, row, cell, himage, hf, hentry⟩ := hsent e he
    obtain ⟨copy, -, hcopy, htag, hsize, -⟩ := row_of_cell hentry.hasCell
    rw [hf]
    exact ⟨row, copy, hentry.hasRow, row_ok hcopy, htag.trans hentry.tag,
      by rw [hsize]; exact hentry.size⟩
  · obtain ⟨f, row', cell, himage, hf, hentry⟩ := hsent e he
    obtain rfl : row = row' := Except.ok.inj (hrow.symm.trans hentry.hasRow)
    have hsize := hentry.size
    rw [hf, bytesAt_cell hs hentry.hasCell, if_pos (by omega), List.drop_zero]
    exact ⟨_, hentry.verbatim hkind howns hpos, rfl⟩
  · obtain ⟨f, row', cell, himage, hf, hentry⟩ := hsent e he
    obtain ⟨obj, image, hobj, hsends, hslot⟩ :=
      h.slot_sent hpending himage hrow hkind hfit
    rw [hf]
    exact ⟨obj, hobj, by rw [hslot, hsends.relocated]⟩
  · obtain ⟨slots, hfiled⟩ := h.filed
    refine ⟨slots, fun e row he hrow howns => ?_,
      fun e e' row row' he hrow howns he' hrow' howns' hsame => ?_⟩
    · obtain ⟨f, _, _, himage, hf, -⟩ := hsent e he
      have hfile := (hfiled.file e f ⟨himage, row, hrow, howns⟩).read hs
      rw [hf]
      exact hfile
    · obtain ⟨f, _, _, himage, -⟩ := hsent e he
      obtain ⟨f', _, _, himage', -⟩ := hsent e' he'
      exact hfiled.distinct e f e' f' ⟨himage, row, hrow, howns⟩ ⟨himage', row', hrow', howns'⟩
        hsame
  · rintro id hid ⟨row, hrow, hlive⟩
    have hcell := cell?_of_row hid hrow
    rw [h.hosts.kept id _ hcell hlive, hcell]

/-- **A transfer copies graphs up to isomorphism.**  Every copy ends.  If it succeeds, the entities
reachable from the object and from all earlier ones have been renamed injectively, each to an entity
that was not live when its copy was made, and the target holds a replica of them in which every
reference is renamed alike. -/
theorem copy_replicates (htarget : Representable target) {earlier images : List Object}
    (hearlier : copyAll source earlier (Transfer.empty, target) = .ok images (t, m))
    (obj : Object) :
    CopiesTo source obj (t, m) (copy source obj (t, m)) ∧
    ∀ image t' m', copy source obj (t, m) = .ok image (t', m') →
      ∃ f : Nat → Nat, Replica source target m' (obj :: earlier) f ∧
        image = obj.relocated f ∧ images = earlier.map (Object.relocated f) ∧
        ∀ e, Reached source (obj :: earlier) e →
          t.image? e = some (f e) ∨ t.image? e = none ∧ ¬ Live m (f e) := by
  have hclosed : Closed source fun _ => True := fun _ _ _ _ _ => trivial
  obtain ⟨hcopying, -, hnone, hsent⟩ : Copying source target (fun _ => True) none (t, m) ∧
      Onward (Transfer.empty, target) (t, m) ∧ t.pending = [] ∧
      List.Forall₂ t.Sends earlier images := by
    have hroots : ∀ root ∈ earlier, ∀ e, root.localEntity? = some e → True :=
      fun _ _ _ _ => trivial
    have hends := ends_copyAll hclosed (copying_empty htarget) rfl hroots
    rw [Ends, hearlier] at hends
    exact hends
  have hroot : ∀ e, obj.localEntity? = some e → True := fun _ _ => trivial
  obtain ⟨hcopies, hends⟩ := ends_copy hclosed hcopying hroot
  refine ⟨hcopies, fun image t' m' hrun => ?_⟩
  rw [Ends, hrun] at hends
  obtain ⟨hlast, honward, hnone', hsends⟩ := hends
  have hsent' : List.Forall₂ t'.Sends earlier images :=
    hsent.imp fun _ _ h => h.mono honward.images
  have hroots : ∀ root ∈ obj :: earlier, ∃ image, t'.Sends root image := by
    rw [List.forall_mem_cons]
    refine ⟨⟨image, hsends⟩, fun root hroot => ?_⟩
    obtain ⟨index, hindex, rfl⟩ := List.getElem_of_mem hroot
    exact ⟨_, hsent'.get hindex (hsent'.length_eq ▸ hindex)⟩
  -- the renaming is what the transfer remembers
  refine ⟨_, hlast.replica hnone' hroots, hsends.relocated, ?_, fun e he => ?_⟩
  · exact relocated_of_sends hsent'
  · obtain ⟨f, himage⟩ := hlast.reached hnone' hroots he
    cases hold : t.image? e with
    | some g =>
        left
        rw [honward.images e g hold]
        rfl
    | none =>
        right
        obtain ⟨row, cell, hentry⟩ := hlast.entry e f himage
        rw [himage]
        exact ⟨rfl, not_live_of_cell (ne_zero_of_cell hentry.hasCell)
          (honward.fresh e f hold himage)⟩

lemma ok_of_answer {α : Type} {x : TransferM α} {s : Transfer × Memory}
    (h : (answer? x s).isSome = true) : ∃ a, x s = .ok a (finalState x s) := by
  rw [answer?] at h
  cases hx : x s with
  | ok a s' => exact ⟨a, by rw [finalState_of_ok hx]⟩
  | error fault s' =>
      rw [hx] at h
      contradiction

/-- An array that holds itself, a string and an open file. -/
def cyclicArray : Object := Object.composite .array .localVM 1 0 3

/-- The string in `cyclicArray`. -/
def sharedString : Object := Object.composite .string .localVM 2 0 1

def cyclicRun : List MemoryOp :=
  [.newArray 3 [], .newString [120] [], .newFile 5 true [], .arrayPut cyclicArray 0 cyclicArray,
    .arrayPut cyclicArray 1 sharedString,
    .arrayPut cyclicArray 2 (Object.composite .file .localVM 3 0 1)]

/-- An array was freed, and its storage waits for the copy. -/
def spareArrayRun : List MemoryOp := [.newArray 3 [], .newString [9, 9] [], .free 1]

theorem copy_replicates_cyclic :
    Representable (freshLocal.afterAll spareArrayRun) ∧
    ∃ images image s s',
      copyAll (freshLocal.afterAll cyclicRun) [sharedString]
        (Transfer.empty, freshLocal.afterAll spareArrayRun) = .ok images s ∧
      copy (freshLocal.afterAll cyclicRun) cyclicArray s = .ok image s' ∧
      CopiesTo (freshLocal.afterAll cyclicRun) cyclicArray s (.ok image s') ∧
      ∃ f : Nat → Nat,
        Replica (freshLocal.afterAll cyclicRun) (freshLocal.afterAll spareArrayRun) s'.2
          [cyclicArray, sharedString] f ∧
        image = cyclicArray.relocated f ∧ images = [sharedString.relocated f] := by
  have htarget : Representable (freshLocal.afterAll spareArrayRun) :=
    representable_afterAll withBacking_freshLocal (by decide +kernel) (by decide +kernel)
  obtain ⟨images, hearlier⟩ := ok_of_answer (x := copyAll (freshLocal.afterAll cyclicRun)
    [sharedString]) (s := (Transfer.empty, freshLocal.afterAll spareArrayRun)) (by decide +kernel)
  have hanswer : (answer? (copy (freshLocal.afterAll cyclicRun) cyclicArray)
      (finalState (copyAll (freshLocal.afterAll cyclicRun) [sharedString])
        (Transfer.empty, freshLocal.afterAll spareArrayRun))).isSome = true := by decide +kernel
  generalize finalState _ _ = s at hearlier hanswer
  obtain ⟨t, m⟩ := s
  obtain ⟨image, hcopy⟩ := ok_of_answer hanswer
  obtain ⟨hcopies, hreplicates⟩ := copy_replicates htarget hearlier cyclicArray
  obtain ⟨f, hreplica, himage, himages, -⟩ := hreplicates image _ _ hcopy
  rw [hcopy] at hcopies
  exact ⟨htarget, images, image, _, _, hearlier, hcopy, hcopies, f, hreplica, himage, himages⟩

end Transfer

end PostScriptCore
