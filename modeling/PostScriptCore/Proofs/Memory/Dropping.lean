import PostScriptCore.Proofs.Memory.Sheltered
import PostScriptCore.Proofs.Memory.Supply

/-!
# What is dropped

An allocation may have to collect before it hands anything out.  What that collection frees is gone when the
operation ends, unless the number is what the operation hands out itself.

* `MemoryOp.after_of_request` — an operation that allocates is its allocation and what it does with the result.
* `Memory.gone_of_collected` — what a collection frees.
* `Memory.gone_of_drops` — what an operation frees by the collection that it runs.
-/

namespace PostScriptCore

/-- New elements are an allocation and a view of it, if there are not too many of them. -/
lemma Memory.newElements_of_lt {kind : Kind} {ty : ObjectType} {width length : Nat} {roots : List Object}
    (h : length * width < wordBound) : newElements kind ty width length roots =
      allocate (length * width) (Tag.ofKind kind) roots >>= fun id => do
        return (← get).wholeView ty id length := if_neg (Nat.not_le_of_lt h)

namespace MemoryOp

open Memory

variable {m : Memory} {op : MemoryOp} {size : Nat} {tag : Tag} {roots : List Object}

/-- What a request for so many bytes says. -/
lemma sized_request {length : Nat} {kind : Kind} {roots' : List Object}
    (h : request?.sized length kind roots' = some (size, tag, roots)) :
    length < wordBound ∧ size = length ∧ tag = Tag.ofKind kind ∧ roots = roots' := by
  rw [request?.sized] at h
  split at h
  · next hlt =>
    cases h
    exact ⟨hlt, rfl, rfl, rfl⟩
  · contradiction

/-- **An operation that allocates** goes on from there without handing out anything else. -/
lemma after_of_request (h : op.request? m = some (size, tag, roots)) :
    ∃ (β : Type) (rest : Nat → MemoryM β), m.after op = finalState (Memory.allocate size tag roots >>= rest) m ∧
      ∀ A id n, Sound n → Owned n id size tag → Performs A (rest id) n fun _ _ => True := by
  cases op with
  | allocate size' tag' roots' =>
      cases h
      refine ⟨_, pure, ?_, fun A id n _ _ => .pure trivial⟩
      rw [bind_pure]
      exact finalState_discard _ m
  | realloc id size' roots' =>
      rw [request?] at h
      split at h
      · next row hrow =>
        cases h
        refine ⟨_, fun target => moveContents id row.size target size, ?_,
          fun A target n hn howned => performs_moveContents _ _ _ _ hn howned⟩
        rw [Memory.after, perform, finalState_discard]
        exact finalState_bind_ok (query_ok hrow)
      · contradiction
  | newString bytes roots' =>
      obtain ⟨hlt, rfl, rfl, rfl⟩ := sized_request h
      refine ⟨_, fun id => do
        Memory.put id 0 bytes
        return (← get).wholeView .string id bytes.length, ?_, fun A id n hn _ =>
          .bind hn (performs_put id 0 bytes hn) fun _ _ _ _ _ => ⟨.refl, trivial⟩⟩
      rw [Memory.after, perform, finalState_discard, Memory.newString, newStringOf,
        if_neg (Nat.not_le_of_lt hlt)]
  | newArray length roots' =>
      obtain ⟨hlt, rfl, rfl, rfl⟩ := sized_request h
      refine ⟨_, fun id => do return (← get).wholeView .array id length, ?_, fun A id n hn _ => ⟨.refl, trivial⟩⟩
      rw [Memory.after, perform, finalState_discard, Memory.newArray, newElements_of_lt hlt]
  | newDict capacity roots' =>
      obtain ⟨hlt, rfl, rfl, rfl⟩ := sized_request h
      refine ⟨_, fun id => do return (← get).wholeView .dict id capacity, ?_, fun A id n hn _ => ⟨.refl, trivial⟩⟩
      rw [Memory.after, perform, finalState_discard, Memory.newDict, newElements_of_lt hlt]
  | newProc elements roots' =>
      obtain ⟨hlt, rfl, rfl, rfl⟩ := sized_request h
      have hlength : ¬ wordBound ≤ elements.length := by
        simp only [objectSize] at hlt
        omega
      refine ⟨_, fun id => do
        let m ← get
        putElements (m.wholeView .array id elements.length) 0 elements
        return (m.wholeView .array id elements.length).cvx, ?_, fun A id n hn _ => ?_⟩
      · rw [Memory.after, perform, finalState_discard, Memory.newProc, if_neg hlength, Memory.newArray,
          newElements_of_lt hlt]
        dsimp only
        rw [bind_assoc]
        rfl
      · have hfilled : Performs A (do
            putElements (n.wholeView .array id elements.length) 0 elements
            return (n.wholeView .array id elements.length).cvx) n fun _ _ => True :=
          .bind hn (performs_putElements _ 0 elements hn) fun _ _ _ _ _ => .pure trivial
        exact hfilled
  | newFile handle writable roots' =>
      cases h
      refine ⟨_, fun id => do
        let slot ← modifyGet fun m : Memory =>
          ((m.resources.insert handle).1, { m with resources := (m.resources.insert handle).2 })
        Memory.put id 0 (wordBytes slot)
        let obj := (← get).wholeView .file id 1
        return if writable then obj else obj.restrict .readOnly, ?_, fun A id n hn _ => ?_⟩
      · rw [Memory.after, perform, finalState_discard]
        rfl
      · have hopened : Performs A (modifyGet fun m : Memory =>
            ((m.resources.insert handle).1, { m with resources := (m.resources.insert handle).2 }))
            n fun _ _ => True := ⟨.of_change (.opened handle), trivial⟩
        refine .bind hn hopened fun slot k hk _ _ => ?_
        exact .bind hk (performs_put id 0 _ hk) fun _ _ _ _ _ => ⟨.refl, trivial⟩
  | _ => contradiction

/-- What the allocation hands out, the operation hands out. -/
lemma allocation?_of_request (h : op.request? m = some (size, tag, roots)) :
    op.allocation? m = answer? (Memory.allocate size tag roots) m := by
  have hsized {length : Nat} {kind : Kind} {roots' : List Object}
      (h : request?.sized length kind roots' = some (size, tag, roots)) :
      allocation?.sized m length kind roots' = answer? (Memory.allocate size tag roots) m := by
    obtain ⟨hlt, rfl, rfl, rfl⟩ := sized_request h
    exact if_pos hlt
  cases op with
  | allocate => cases h; rfl
  | newFile => cases h; rfl
  | realloc id size' roots' =>
      rw [request?] at h
      rw [allocation?]
      split at h <;> cases h
      rfl
  | newString => exact hsized h
  | newArray => exact hsized h
  | newProc => exact hsized h
  | newDict => exact hsized h
  | _ => contradiction

end MemoryOp

namespace Memory

variable {m : Memory} {id : Nat} {roots : List Object} {bank : Bank}

/-- What a collection does not reach is gone. -/
lemma gone_of_collected (h : m.InOrder bank) (hgarbage : Garbage m roots id) (tag : Tag) :
    ¬ (m.after (.collect roots true false)).Holds id tag := by
  obtain ⟨n, hrun, hn⟩ := collect_run h.sound h.tidy h.collector_eq roots
  rw [after_of_ok rfl hrun]
  have ⟨row, hrow, hsize, _⟩ := hgarbage
  have hid : id ≠ 0 := by
    rintro rfl
    obtain ⟨head, hhead, hzero⟩ := h.sound.head
    obtain rfl := Option.some.inj (hrow.symm.trans hhead)
    omega
  rintro ⟨row', hrow', hlive, -⟩
  obtain rfl := Option.some.inj (hrow'.symm.trans (hn.gone id row hid hrow hgarbage))
  rw [isFree_freedRow] at hlive
  contradiction

/-- **What an operation drops is gone**, unless it hands out the number again. -/
lemma gone_of_drops (h : m.InOrder bank) {op : MemoryOp} (hdrops : op.Drops id m)
    (hnew : op.allocation? m ≠ some id) (tag : Tag) : ¬ (m.after op).Holds id tag := by
  obtain ⟨roots, hcollects, hgarbage⟩ := hdrops
  cases hrequest : op.request? m with
  | none =>
      rw [MemoryOp.eq_collect_of_collection? hrequest hcollects]
      exact gone_of_collected h hgarbage tag
  | some request =>
      obtain ⟨size, tag', roots'⟩ := request
      have hrequests : m.Requests size tag' ∧ roots' = roots := by
        rw [MemoryOp.collection?_of_request hrequest] at hcollects
        simp only [MemoryOp.collection?, MemoryOp.request?] at hcollects
        split at hcollects
        · next hanswer =>
          cases hcollects
          exact ⟨hanswer, rfl⟩
        · contradiction
      obtain ⟨hrequests, rfl⟩ := hrequests
      obtain ⟨count, hrun⟩ := allocate_of_requests roots' h.sound hrequests
      obtain ⟨β, rest, hafter, hrest⟩ := MemoryOp.after_of_request hrequest
      let k : Memory := { m.after (.collect roots' true false) with gcCountdown := count }
      have hk : Sound k := sound_countdown (sound_after h.sound (.collect roots' true false)) count
      have hanswers : Answers (fun j => op.allocation? m = some j) (allocateWithoutGc size tag') k := by
        intro j n hj
        rw [MemoryOp.allocation?_of_request hrequest, answer?, hrun, hj]
      have hmoves : Performs (fun j => op.allocation? m = some j) (allocateWithoutGc size tag' >>= rest) k
          fun _ _ => True :=
        .bind hk (performs_allocateWithoutGc size tag' hk hanswers) fun j n hn _ howned => hrest _ j n hn howned
      have hsame : m.after op = finalState (allocateWithoutGc size tag' >>= rest) k := by
        rw [hafter, finalState, finalState, bind_congr_run hrun]
      rw [hsame]
      exact fun hholds => gone_of_collected h hgarbage tag (hmoves.moves.holds hk hnew hholds)

end Memory

end PostScriptCore
