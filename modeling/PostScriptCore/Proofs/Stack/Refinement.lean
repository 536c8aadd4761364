import PostScriptCore.Proofs.Stack

/-!
# Segmented stacks as bounded lists

Where one segment ends and the next begins never shows: a stack answers and changes as a list would that
takes at most so many items.  A full top segment could be told in two ways, as full or as the next one being
empty, and only the first is used, so that an empty top segment means an empty stack.

* `StackOp` — what can be done to a stack, with `StackOp.perform` on stacks and `StackOp.onList` on lists.
* `Stack.afterAll`, `StackOp.contents` — a stack after a run, and the list after the same run.
* `Stack.Shows` — what can be asked of a stack is answered by a list.
* `Stack.InBounds` — the slots that are read and written exist.
* `StackOp.ends_perform` — one operation, and `Stack.run_afterAll` — a run of them.
* `Stack.refines_bounded_list` — all of it, for every run on a new stack.
-/

namespace PostScriptCore

/-! ## Operations -/

/-- What can be done to a stack. -/
inductive StackOp
  | push (obj : Object)
  | pop
  | drop (n : Nat)
  | replaceFromTop (index : Nat) (obj : Object)
  | replaceFromBottom (index : Nat) (obj : Object)
  | clear
  | free
  deriving DecidableEq

namespace StackOp

/-- The operation on a stack.  The answer is the item that was popped, if there was one. -/
def perform : StackOp → EStateM Fault Stack (Option Object)
  | push obj => do
    Stack.push obj
    return none
  | pop => modifyGet fun s => (s.pop?.map Prod.fst, (s.pop?.map Prod.snd).getD s)
  | drop n => do
    Stack.drop n
    return none
  | replaceFromTop index obj => do
    Stack.replaceFromTop index obj
    return none
  | replaceFromBottom index obj => do
    Stack.replaceFromBottom index obj
    return none
  | clear => do
    modify Stack.clear
    return none
  | free => do
    modify Stack.free
    return none

/-- The operation on a list from the bottom up that takes at most `limit` items and reports `overflow`
then.  What is refused changes nothing. -/
def onList (limit : Nat) (overflow : Fault) (op : StackOp) :
    EStateM Fault (List Object) (Option Object) := fun xs =>
  match op with
  | push obj => if xs.length < limit then .ok none (xs ++ [obj]) else .error overflow xs
  | pop => .ok xs.getLast? xs.dropLast
  | drop n =>
    if n ≤ xs.length then .ok none (xs.take (xs.length - n)) else .error .stackUnderflow xs
  | replaceFromTop index obj =>
    if index < xs.length then .ok none (xs.reverse.set index obj).reverse
    else .error .rangeCheck xs
  | replaceFromBottom index obj =>
    if index < xs.length then .ok none (xs.set index obj) else .error .rangeCheck xs
  | clear | free => .ok none []

/-- The list after a run on an empty one. -/
def contents (limit : Nat) (overflow : Fault) (ops : List StackOp) : List Object :=
  ops.foldl (fun xs op => finalState (op.onList limit overflow) xs) []

end StackOp

namespace Stack

/-- The stack after an operation, whether or not it was refused. -/
def after (s : Stack) (op : StackOp) : Stack := finalState op.perform s

/-- The stack after a run. -/
def afterAll (s : Stack) (ops : List StackOp) : Stack := ops.foldl after s

/-- How an operation on a stack ends, with the items in place of the stack. -/
def viewed {α : Type} : EStateM.Result Fault Stack α → EStateM.Result Fault (List Object) α
  | .ok a s => .ok a s.toList
  | .error fault s => .error fault s.toList

/-! ## Questions -/

/-- Whatever is asked of the stack is answered by the list. -/
structure Shows (s : Stack) (xs : List Object) : Prop where
  forwards : (List.range s.count).filterMap s.fromBottom? = xs
  backwards : (List.range s.count).reverse.filterMap s.fromBottom? = xs.reverse
  count : s.count = xs.length
  isEmpty : s.isEmpty = xs.isEmpty
  peek : s.peek? = xs.getLast?
  fromBottom : ∀ index, s.fromBottom? index = xs[index]?
  fromTop : ∀ index, s.fromTop? index = xs.reverse[index]?
  matched : ∀ distance, s.countToMark = .ok distance ↔ ∃ below mark above,
    xs = below ++ mark :: above ∧ mark.ty = .mark ∧ (∀ obj ∈ above, obj.ty ≠ .mark) ∧
      above.length = distance
  unmatched : s.countToMark = .error .unmatchedMark ↔ ∀ obj ∈ xs, obj.ty ≠ .mark

variable {s t : Stack} {xs : List Object}

lemma isEmpty_eq (h : s.WellFormed) : s.isEmpty = s.toList.isEmpty := by
  have hpos := count_pos_iff h
  rw [isEmpty, Bool.eq_iff_iff, beq_iff_eq, List.isEmpty_iff, ← List.length_eq_zero_iff, length_toList]
  omega

/-- Reading the slots one by one. -/
lemma filterMap_fromBottom? (s : Stack) {indices : List Nat} (h : ∀ index ∈ indices, index < s.count) :
    indices.filterMap s.fromBottom? = indices.map s.slot := by
  induction indices with
  | nil => rfl
  | cons index rest ih =>
      have hread : s.fromBottom? index = some (s.slot index) := if_pos (h index List.mem_cons_self)
      rw [List.filterMap_cons_some hread, List.map_cons, ih fun i hi => h i (List.mem_cons_of_mem _ hi)]

lemma countToMark_of_unmatched (h : ∀ obj ∈ s.toList, obj.ty ≠ .mark) :
    s.countToMark = .error .unmatchedMark := by
  have hnone : s.toList.reverse.findIdx? (fun obj => obj.ty == .mark) = none := by
    rw [List.findIdx?_eq_none_iff]
    intro obj hobj
    exact beq_eq_false_iff_ne.mpr (h obj (List.mem_reverse.mp hobj))
  rw [countToMark, hnone]

/-- A list with a mark has a topmost one. -/
lemma exists_topmost_mark (h : ∃ obj ∈ xs, obj.ty = .mark) : ∃ below mark above,
    xs = below ++ mark :: above ∧ mark.ty = .mark ∧ ∀ obj ∈ above, obj.ty ≠ .mark := by
  induction xs with
  | nil =>
      obtain ⟨obj, hobj, -⟩ := h
      contradiction
  | cons x rest ih =>
      by_cases hrest : ∃ obj ∈ rest, obj.ty = .mark
      · obtain ⟨below, mark, above, rfl, hmark, habove⟩ := ih hrest
        exact ⟨x :: below, mark, above, rfl, hmark, habove⟩
      · obtain ⟨obj, hobj, hmark⟩ := h
        rcases List.mem_cons.mp hobj with rfl | hmem
        · exact ⟨[], obj, rest, rfl, hmark, fun other hother hty => hrest ⟨other, hother, hty⟩⟩
        · exact absurd ⟨obj, hmem, hmark⟩ hrest

/-- **A stack in order shows its items.** -/
lemma WellFormed.shows (h : s.WellFormed) : s.Shows s.toList where
  forwards := filterMap_fromBottom? s fun _ hindex => List.mem_range.mp hindex
  backwards := by
    rw [filterMap_fromBottom? s fun _ hindex => List.mem_range.mp (List.mem_reverse.mp hindex),
      List.map_reverse, toList]
  count := (length_toList s).symm
  isEmpty := isEmpty_eq h
  peek := by
    rw [peek?, fromTop?_eq_getElem?, ← List.head?_eq_getElem?, List.head?_reverse]
  fromBottom := fromBottom?_eq_getElem? s
  fromTop := fromTop?_eq_getElem? s
  matched := by
    intro distance
    constructor
    · intro hmark
      by_cases hany : ∃ obj ∈ s.toList, obj.ty = .mark
      · obtain ⟨below, mark, above, hlist, hty, habove⟩ := exists_topmost_mark hany
        refine ⟨below, mark, above, hlist, hty, habove, ?_⟩
        rw [countToMark_eq hlist hty habove] at hmark
        exact Except.ok.inj hmark
      · rw [countToMark_of_unmatched fun obj hobj hty => hany ⟨obj, hobj, hty⟩] at hmark
        contradiction
    · rintro ⟨below, mark, above, hlist, hmark, habove, hlength⟩
      rw [countToMark_eq hlist hmark habove, hlength]
  unmatched := by
    refine ⟨fun hmark obj hobj hty => ?_, countToMark_of_unmatched⟩
    obtain ⟨below, mark, above, hlist, hmark', habove⟩ := exists_topmost_mark ⟨obj, hobj, hty⟩
    rw [countToMark_eq hlist hmark' habove] at hmark
    contradiction

/-! ## Slots -/

/-- The segment exists and has the position. -/
def HasSlot (s : Stack) (segment position : Nat) : Prop :=
  ∃ slots, s.segments[segment]? = some slots ∧ position < slots.size

/-- The slots exist that reading and replacing, popping, and pushing get to. -/
structure InBounds (s : Stack) : Prop where
  reached : ∀ index < s.count, s.HasSlot (index / s.segmentSize) (index % s.segmentSize)
  popped : s.fill ≠ 0 → s.HasSlot s.top (s.fill - 1)
  pushed : s.makeRoom.HasSlot s.makeRoom.top s.makeRoom.fill

lemma WellFormed.inBounds (h : s.WellFormed) : s.InBounds where
  reached := by
    intro index hindex
    have hsegment := Array.getElem?_eq_getElem (h.div_lt hindex)
    refine ⟨_, hsegment, ?_⟩
    rw [h.segment_size _ _ hsegment]
    exact Nat.mod_lt _ h.segmentSize_pos
  popped := by
    intro hfill
    have hsegment := Array.getElem?_eq_getElem h.top_lt
    have hle := h.fill_le
    refine ⟨_, hsegment, ?_⟩
    rw [h.segment_size _ _ hsegment]
    omega
  pushed := by
    have hroomy := h.makeRoom
    have hsegment := Array.getElem?_eq_getElem hroomy.top_lt
    refine ⟨_, hsegment, ?_⟩
    rw [hroomy.segment_size _ _ hsegment]
    exact hroomy.fill_lt

/-! ## Segments -/

/-- Making room allocates at most one segment. -/
lemma segments_makeRoom (s : Stack) : s.segments.size ≤ s.makeRoom.segments.size := by
  rw [makeRoom]
  split_ifs
  · rw [Array.size_push]
    exact Nat.le_succ _
  · exact Nat.le_refl _
  · exact Nat.le_refl _

lemma segments_push {obj : Object} (h : push obj s = .ok () t) :
    t.segmentSize = s.segmentSize ∧ s.segments.size ≤ t.segments.size := by
  have hsize : s.makeRoom.segmentSize = s.segmentSize := by
    rw [makeRoom]
    split_ifs <;> rfl
  rw [push] at h
  split_ifs at h
  cases h
  refine ⟨hsize, ?_⟩
  rw [setSlot, Array.size_modify]
  exact segments_makeRoom s

lemma frame_pop? {obj : Object} (h : s.pop? = some (obj, t)) :
    t.segments = s.segments ∧ t.segmentSize = s.segmentSize ∧ t.limit = s.limit ∧
      t.overflow = s.overflow := by
  rw [pop?] at h
  split at h
  · contradiction
  · dsimp only at h
    split at h <;>
    · cases h
      exact ⟨rfl, rfl, rfl, rfl⟩

lemma frame_setCount (s : Stack) (n : Nat) :
    (s.setCount n).segments = s.segments ∧ (s.setCount n).segmentSize = s.segmentSize ∧
      (s.setCount n).limit = s.limit ∧ (s.setCount n).overflow = s.overflow := by
  rw [setCount]
  split_ifs <;> exact ⟨rfl, rfl, rfl, rfl⟩

lemma frame_replaceFromBottom {index : Nat} {obj : Object} (h : replaceFromBottom index obj s = .ok () t) :
    t.segments.size = s.segments.size ∧ t.segmentSize = s.segmentSize ∧ t.limit = s.limit ∧
      t.overflow = s.overflow := by
  rw [replaceFromBottom] at h
  split_ifs at h
  cases h
  exact ⟨Array.size_modify, rfl, rfl, rfl⟩

/-- Giving segments back leaves one, and no item. -/
lemma WellFormed.free (h : s.WellFormed) :
    s.free.WellFormed ∧ s.free.segments.size = 1 ∧ s.free.count = 0 := by
  have hpos : 0 < s.segments.size := Nat.lt_of_le_of_lt (Nat.zero_le _) h.top_lt
  have hsize : s.free.segments.size = 1 := by
    simp only [Stack.free, Array.take_eq_extract, Array.size_extract]
    omega
  have hcount : s.free.count = 0 := by
    show 0 * s.segmentSize + 0 = 0
    omega
  refine ⟨⟨h.segmentSize_pos, fun i slots hi => ?_, hsize ▸ Nat.one_pos, Nat.zero_le _,
    fun htop => absurd htop (Nat.lt_irrefl 0), by rw [hcount]; exact Nat.zero_le _⟩, hsize, hcount⟩
  have hold : s.segments[i]? = some slots := by
    simp only [Stack.free, Array.take_eq_extract, Array.getElem?_extract, Nat.zero_add] at hi
    split_ifs at hi
    exact hi
  exact h.segment_size i slots hold

end Stack

/-! ## One operation -/

namespace StackOp

variable {s t : Stack}

/-- The stack is still in order after the operation; its settings are the same, and it has lost no segment,
unless it gave them back. -/
structure Evolves (op : StackOp) (s t : Stack) : Prop where
  wellFormed : t.WellFormed
  segmentSize : t.segmentSize = s.segmentSize
  limit : t.limit = s.limit
  overflow : t.overflow = s.overflow
  segments : op ≠ .free → s.segments.size ≤ t.segments.size

/-- **One operation** does to the stack what it does to the list, and what is refused changes nothing. -/
lemma ends_perform (h : s.WellFormed) (op : StackOp) :
    Ends op.perform s
      (fun answer t => op.Evolves s t ∧
        op.onList s.limit s.overflow s.toList = .ok answer t.toList)
      fun fault t => t = s ∧ op.onList s.limit s.overflow s.toList = .error fault s.toList := by
  have hlength : s.toList.length = s.count := Stack.length_toList s
  cases op with
  | push obj =>
      by_cases hroom : s.count < s.limit
      · obtain ⟨t, hrun, hwf, hlist, hlimit⟩ := Stack.push_run h hroom obj
        obtain ⟨hsize, hsegments⟩ := Stack.segments_push hrun
        refine Ends.bind (.of_ok hrun ⟨⟨hwf, hsize, hlimit, (Stack.limit_push hrun).2,
          fun _ => hsegments⟩, ?_⟩)
        rw [onList, hlength, hlist]
        exact if_pos hroom
      · refine Ends.bind (.of_error (Stack.push_full (Nat.le_of_not_lt hroom) obj) ⟨rfl, ?_⟩)
        rw [onList, hlength]
        exact if_neg hroom
  | pop =>
      cases hpop : s.pop? with
      | none =>
          have hnil := Stack.toList_of_pop?_eq_none h hpop
          have hrun : perform .pop s = .ok none s := by
            show EStateM.Result.ok (s.pop?.map Prod.fst) ((s.pop?.map Prod.snd).getD s) = _
            rw [hpop]
            rfl
          refine .of_ok hrun ⟨⟨h, rfl, rfl, rfl, fun _ => Nat.le_refl _⟩, ?_⟩
          rw [onList, hnil]
          rfl
      | some next =>
          obtain ⟨obj, t⟩ := next
          obtain ⟨hwf, hlist⟩ := Stack.pop?_cases h hpop
          obtain ⟨hsegments, hsize, hlimit, hoverflow⟩ := Stack.frame_pop? hpop
          have hrun : perform .pop s = .ok (some obj) t := by
            show EStateM.Result.ok (s.pop?.map Prod.fst) ((s.pop?.map Prod.snd).getD s) = _
            rw [hpop]
            rfl
          refine .of_ok hrun ⟨⟨hwf, hsize, hlimit, hoverflow, fun _ =>
            Nat.le_of_eq (congrArg Array.size hsegments.symm)⟩, ?_⟩
          rw [onList, hlist]
          simp
  | drop n =>
      by_cases hn : n ≤ s.count
      · obtain ⟨t, hrun, hwf, hlist⟩ := Stack.drop_run h hn
        have ht : t = s.setCount (s.count - n) := by
          rw [Stack.drop, if_neg (Nat.not_lt.mpr hn)] at hrun
          cases hrun
          rfl
        obtain ⟨hsegments, hsize, hlimit, hoverflow⟩ := Stack.frame_setCount s (s.count - n)
        refine Ends.bind (.of_ok hrun ⟨⟨hwf, ht ▸ hsize, ht ▸ hlimit, ht ▸ hoverflow,
          fun _ => Nat.le_of_eq (congrArg Array.size (ht ▸ hsegments.symm))⟩, ?_⟩)
        rw [onList, hlength, hlist]
        exact if_pos hn
      · refine Ends.bind (.of_error (by rw [Stack.drop, if_pos (Nat.lt_of_not_le hn)]) ⟨rfl, ?_⟩)
        rw [onList, hlength]
        exact if_neg hn
  | replaceFromTop index obj =>
      by_cases hindex : index < s.count
      · obtain ⟨t, hrun, hwf, -, hlist⟩ := Stack.replaceFromTop_run h hindex obj
        have hbottom : Stack.replaceFromBottom (s.count - 1 - index) obj s = .ok () t := by
          rw [Stack.replaceFromTop, if_pos hindex] at hrun
          exact hrun
        obtain ⟨hsegments, hsize, hlimit, hoverflow⟩ := Stack.frame_replaceFromBottom hbottom
        refine Ends.bind (.of_ok hrun ⟨⟨hwf, hsize, hlimit, hoverflow,
          fun _ => Nat.le_of_eq hsegments.symm⟩, ?_⟩)
        rw [onList, hlength, ← hlist, List.reverse_reverse]
        exact if_pos hindex
      · refine Ends.bind (.of_error (by rw [Stack.replaceFromTop, if_neg hindex]) ⟨rfl, ?_⟩)
        rw [onList, hlength]
        exact if_neg hindex
  | replaceFromBottom index obj =>
      by_cases hindex : index < s.count
      · obtain ⟨t, hrun, hwf, hlist⟩ := Stack.replaceFromBottom_run h hindex obj
        obtain ⟨hsegments, hsize, hlimit, hoverflow⟩ := Stack.frame_replaceFromBottom hrun
        refine Ends.bind (.of_ok hrun ⟨⟨hwf, hsize, hlimit, hoverflow,
          fun _ => Nat.le_of_eq hsegments.symm⟩, ?_⟩)
        rw [onList, hlength, hlist]
        exact if_pos hindex
      · refine Ends.bind (.of_error (by rw [Stack.replaceFromBottom, if_neg hindex]) ⟨rfl, ?_⟩)
        rw [onList, hlength]
        exact if_neg hindex
  | clear =>
      obtain ⟨hsegments, hsize, hlimit, hoverflow⟩ := Stack.frame_setCount s 0
      have hwf := (h.shortens_setCount (Nat.zero_le _)).1.wellFormed h
      refine Ends.bind (.modify ⟨⟨hwf, hsize, hlimit, hoverflow, fun _ => ?_⟩, ?_⟩)
      · exact Nat.le_of_eq (congrArg Array.size hsegments.symm)
      · rw [Stack.toList_clear]
        rfl
  | free =>
      refine Ends.bind (.modify ⟨⟨h.free.1, rfl, rfl, rfl, fun hne => absurd rfl hne⟩, ?_⟩)
      rw [List.length_eq_zero_iff.mp ((Stack.length_toList s.free).trans h.free.2.2)]
      rfl

/-- The same as an equation between the two ends. -/
lemma viewed_perform (h : s.WellFormed) (op : StackOp) :
    Stack.viewed (op.perform s) = op.onList s.limit s.overflow s.toList := by
  have hends := ends_perform h op
  rw [Ends] at hends
  cases hrun : op.perform s with
  | ok answer t =>
      rw [hrun] at hends
      exact hends.2.symm
  | error fault t =>
      rw [hrun] at hends
      obtain ⟨rfl, hlist⟩ := hends
      exact hlist.symm

lemma eq_of_refused (h : s.WellFormed) {op : StackOp} {fault : Fault}
    (hrun : op.perform s = .error fault t) : t = s := by
  have hends := ends_perform h op
  rw [Ends, hrun] at hends
  exact hends.1

lemma evolves_after (h : s.WellFormed) (op : StackOp) : op.Evolves s (s.after op) :=
  have hrefl : op.Evolves s s := ⟨h, rfl, rfl, rfl, fun _ => Nat.le_refl _⟩
  Ends.finalState (Ends.mono (ends_perform h op) (fun _ _ ht => ht.1) fun _ _ ht => ht.1.symm ▸ hrefl)

lemma toList_after (h : s.WellFormed) (op : StackOp) :
    (s.after op).toList = finalState (op.onList s.limit s.overflow) s.toList := by
  rw [finalState, ← viewed_perform h op, Stack.after, finalState]
  cases op.perform s <;> rfl

end StackOp

/-! ## Runs -/

namespace Stack

/-- The stack has the settings that it was created with. -/
structure HasSettings (s : Stack) (segmentSize limit : Nat) (overflow : Fault) : Prop where
  segmentSize : s.segmentSize = segmentSize
  limit : s.limit = limit
  overflow : s.overflow = overflow

/-- **A run** leaves the stack in order, and does to its items what it does to the list. -/
lemma run_afterAll {s : Stack} (h : s.WellFormed) (ops : List StackOp) :
    (s.afterAll ops).WellFormed ∧ (s.afterAll ops).HasSettings s.segmentSize s.limit s.overflow ∧
      (s.afterAll ops).toList =
        ops.foldl (fun xs op => finalState (op.onList s.limit s.overflow) xs) s.toList := by
  induction ops generalizing s with
  | nil => exact ⟨h, ⟨rfl, rfl, rfl⟩, rfl⟩
  | cons op rest ih =>
      have hevolves := StackOp.evolves_after h op
      obtain ⟨hwf, hsettings, hlist⟩ := ih hevolves.wellFormed
      rw [hevolves.segmentSize, hevolves.limit, hevolves.overflow] at hsettings
      rw [hevolves.limit, hevolves.overflow, StackOp.toList_after h op] at hlist
      exact ⟨hwf, hsettings, hlist⟩

/-- **A segmented stack is a bounded list.**  After every run on a new stack there is the list that the
same run makes of the empty one, and every question about the stack is answered by it; every operation
that may follow answers as on the list and leaves the items that it leaves there, and changes nothing if
it is refused.  The counters stay within the segments, the top segment is empty only if the stack is, no
slot is read or written that does not exist, and segments are given back by `free` alone. -/
theorem refines_bounded_list {segmentSize : Nat} (hsegment : 0 < segmentSize) (limit : Nat)
    (overflow : Fault) (ops : List StackOp) {s : Stack}
    (hs : s = (create segmentSize limit overflow).afterAll ops) :
    ∃ xs, xs = StackOp.contents limit overflow ops ∧ s.Shows xs ∧
      (∀ op : StackOp, viewed (op.perform s) = op.onList limit overflow xs ∧
        (∀ fault t, op.perform s = .error fault t → t = s) ∧
        (op ≠ .free → s.segments.size ≤ (s.after op).segments.size)) ∧
      s.HasSettings segmentSize limit overflow ∧ s.top < s.segments.size ∧
      s.fill ≤ s.segmentSize ∧ (s.fill = 0 ↔ xs = []) ∧ xs.length ≤ limit ∧ s.InBounds := by
  subst hs
  obtain ⟨hwf, hsettings, hlist⟩ := run_afterAll (wellFormed_create hsegment limit overflow) ops
  have hempty := isEmpty_eq hwf
  rw [isEmpty, Bool.eq_iff_iff, beq_iff_eq, List.isEmpty_iff] at hempty
  refine ⟨_, rfl, ?_⟩
  have hcontents : ((create segmentSize limit overflow).afterAll ops).toList =
      StackOp.contents limit overflow ops := hlist.trans (by rw [toList_create]; rfl)
  rw [← hcontents]
  refine ⟨hwf.shows, fun op => ⟨?_, fun fault t => StackOp.eq_of_refused hwf,
    (StackOp.evolves_after hwf op).segments⟩, hsettings, hwf.top_lt, hwf.fill_le, hempty, ?_, hwf.inBounds⟩
  · rw [StackOp.viewed_perform hwf op, hsettings.limit, hsettings.overflow]
    rfl
  · rw [length_toList]
    exact Nat.le_trans hwf.count_le (Nat.le_of_eq hsettings.limit)

/-- A stack with segments of two that takes three items, after a run across the end of a segment. -/
theorem refines_bounded_list_crossing : 0 < 2 ∧
    ∃ s : Stack, s = (create 2 3 .execStackOverflow).afterAll
        [.push (.int 1), .push Object.mark, .push (.int 2), .push (.int 3), .pop, .pop, .push (.int 4),
          .replaceFromTop 1 (.int 5), .drop 3] ∧
      s.Shows [.int 5, .int 4] ∧ s.segments.size = 2 ∧
      viewed ((StackOp.drop 3).perform s) = .error .stackUnderflow [.int 5, .int 4] := by
  obtain ⟨xs, hxs, hshows, hop, -⟩ := refines_bounded_list (show 0 < 2 by decide) 3 .execStackOverflow
    [.push (.int 1), .push Object.mark, .push (.int 2), .push (.int 3), .pop, .pop, .push (.int 4),
      .replaceFromTop 1 (.int 5), .drop 3] rfl
  have hcontents : xs = [.int 5, .int 4] := hxs.trans (by decide)
  rw [hcontents] at hshows
  refine ⟨by decide, _, rfl, hshows, by decide, ?_⟩
  rw [(hop (.drop 3)).1, hcontents]
  rfl

end Stack

end PostScriptCore
