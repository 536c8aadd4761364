import PostScriptCore.Proofs.Step
import PostScriptCore.Stack
import Mathlib.Tactic.SplitIfs

/-!
# Segmented stacks as lists

The segments of a stack are an implementation of one list, its items from the bottom up.

* `Stack.WellFormed` — the segments have their size, and the counters point into them.
* `Stack.push_run`, `Stack.push_full`, `Stack.pop?_run`, `Stack.drop_run`,
  `Stack.replaceFromBottom_run` — the operations on the list.
-/

namespace PostScriptCore.Stack

/-- The segments have their size, the counters point into them, and the limit is kept. -/
structure WellFormed (s : Stack) : Prop where
  segmentSize_pos : 0 < s.segmentSize
  segment_size : ∀ (i : Nat) (segment : Array Object), s.segments[i]? = some segment →
    segment.size = s.segmentSize
  top_lt : s.top < s.segments.size
  fill_le : s.fill ≤ s.segmentSize
  fill_pos : 0 < s.top → 0 < s.fill
  count_le : s.count ≤ s.limit

lemma wellFormed_create {segmentSize : Nat} (h : 0 < segmentSize) (limit : Nat) (overflow : Fault) :
    (create segmentSize limit overflow).WellFormed where
  segmentSize_pos := h
  segment_size := by
    intro i segment hi
    rcases Nat.eq_zero_or_pos i with rfl | hpos
    · obtain rfl := Option.some.inj hi
      exact Array.size_replicate
    · rw [create, Array.getElem?_eq_none (Nat.succ_le_of_lt hpos)] at hi
      contradiction
  top_lt := Nat.one_pos
  fill_le := Nat.zero_le _
  fill_pos := fun h0 => absurd h0 (Nat.lt_irrefl 0)
  count_le := by
    show 0 * segmentSize + 0 ≤ limit
    omega

@[simp] lemma toList_create (segmentSize limit : Nat) (overflow : Fault) :
    (create segmentSize limit overflow).toList = [] := by
  simp [toList, count, create]

@[simp] lemma length_toList (s : Stack) : s.toList.length = s.count := by
  rw [toList, List.length_map, List.length_range]

/-- One more item on top. -/
lemma count_of_concat {s t : Stack} {obj : Object} (h : t.toList = s.toList ++ [obj]) :
    t.count = s.count + 1 := by
  rw [← length_toList, h, List.length_append, length_toList, List.length_singleton]

/-! ## Slots -/

/-- A position below the number of slots has a segment and a place in it. -/
lemma WellFormed.slot_eq {s : Stack} (h : s.WellFormed) {segment position : Nat}
    (hposition : position < s.segmentSize) :
    s.slot (segment * s.segmentSize + position) =
      (s.segments.getD segment #[]).getD position Object.null := by
  have hdiv : (segment * s.segmentSize + position) / s.segmentSize = segment := by
    rw [Nat.mul_comm, Nat.mul_add_div h.segmentSize_pos, Nat.div_eq_of_lt hposition, Nat.add_zero]
  have hmod : (segment * s.segmentSize + position) % s.segmentSize = position := by
    rw [Nat.mul_comm, Nat.mul_add_mod, Nat.mod_eq_of_lt hposition]
  have hsegment : s.segments.getD segment #[] = s.segments[segment]?.getD #[] :=
    Array.getD_eq_getD_getElem?
  rw [slot, hdiv, hmod, hsegment]
  cases s.segments[segment]? with
  | none => rfl
  | some slots => rfl

/-- The slots below the top are in segments that exist. -/
lemma WellFormed.div_lt {s : Stack} (h : s.WellFormed) {index : Nat} (hindex : index < s.count) :
    index / s.segmentSize < s.segments.size := by
  have htop := h.top_lt
  have hfill := h.fill_le
  have hlt : index < (s.top + 1) * s.segmentSize := by
    rw [count] at hindex
    rw [Nat.succ_mul]
    omega
  have := (Nat.div_lt_iff_lt_mul h.segmentSize_pos).mpr hlt
  omega

/-! ## Pushing -/

lemma count_makeRoom (s : Stack) : s.makeRoom.count = s.count := by
  rw [makeRoom]
  split
  · next hfull =>
    split
    · show (s.top + 1) * s.segmentSize + 0 = s.top * s.segmentSize + s.fill
      rw [hfull, Nat.succ_mul, Nat.add_zero]
    · show (s.top + 1) * s.segmentSize + 0 = s.top * s.segmentSize + s.fill
      rw [hfull, Nat.succ_mul, Nat.add_zero]
  · rfl

/-- After making room there is a free slot in the top segment, and nothing has moved. -/
structure Roomy (s t : Stack) : Prop where
  frame : t.segmentSize = s.segmentSize ∧ t.limit = s.limit ∧ t.overflow = s.overflow
  count : t.count = s.count
  segment_size : ∀ (i : Nat) (segment : Array Object), t.segments[i]? = some segment →
    segment.size = t.segmentSize
  top_lt : t.top < t.segments.size
  fill_lt : t.fill < t.segmentSize
  slot : ∀ index, index < s.count → t.slot index = s.slot index

lemma WellFormed.makeRoom {s : Stack} (h : s.WellFormed) : Roomy s s.makeRoom := by
  have hcount := count_makeRoom s
  rw [Stack.makeRoom] at hcount ⊢
  split
  · next hfull =>
    rw [if_pos hfull] at hcount
    split
    · next hlast =>
      rw [if_pos hlast] at hcount
      have hold : ∀ i : Nat, i < s.segments.size →
          (s.segments.push (freshSegment s.segmentSize))[i]? = s.segments[i]? := by
        intro i hi
        rw [Array.getElem?_push, if_neg (by omega)]
      refine ⟨⟨rfl, rfl, rfl⟩, hcount, fun i segment hi => ?_, ?_, h.segmentSize_pos,
        fun index hindex => ?_⟩
      · rw [Array.getElem?_push] at hi
        split at hi
        · obtain rfl := Option.some.inj hi
          exact Array.size_replicate
        · exact h.segment_size i segment hi
      · show s.top + 1 < (s.segments.push (freshSegment s.segmentSize)).size
        rw [Array.size_push]
        omega
      · simp only [Stack.slot]
        rw [hold _ (h.div_lt hindex)]
    · next hlast =>
      rw [if_neg hlast] at hcount
      have htop := h.top_lt
      exact ⟨⟨rfl, rfl, rfl⟩, hcount, h.segment_size, by simp only; omega, h.segmentSize_pos,
        fun _ _ => rfl⟩
  · next hfull =>
    have hfill := h.fill_le
    exact ⟨⟨rfl, rfl, rfl⟩, rfl, h.segment_size, h.top_lt, by omega, fun _ _ => rfl⟩

/-- Overwriting a slot changes that slot only. -/
lemma Roomy.slot_setSlot {s t : Stack} (h : Roomy s t) (obj : Object)
    {index : Nat} (hindex : index < t.count + 1) :
    (t.setSlot t.top t.fill obj).slot index = if index = t.count then obj else t.slot index := by
  have hfill := h.fill_lt
  have hsize : 0 < t.segmentSize := by omega
  simp only [setSlot, Stack.slot, Array.getElem?_modify]
  have hsplit := Nat.div_add_mod index t.segmentSize
  have hmod := Nat.mod_lt index hsize
  rw [Nat.mul_comm] at hsplit
  by_cases hsegment : t.top = index / t.segmentSize
  · rw [if_pos hsegment]
    obtain ⟨slots, hslots⟩ : ∃ slots, t.segments[index / t.segmentSize]? = some slots := by
      rw [← hsegment]
      exact ⟨_, Array.getElem?_eq_getElem h.top_lt⟩
    have hlength := h.segment_size _ _ hslots
    rw [hslots]
    simp only [Option.map_some, Array.getD_eq_getD_getElem?, Array.getElem?_setIfInBounds]
    rw [← hsegment] at hsplit
    by_cases hindex' : index = t.count
    · have hfill' : t.fill = index % t.segmentSize := by
        rw [hindex', Stack.count] at hsplit ⊢
        omega
      rw [if_pos hindex', if_pos hfill', if_pos (by omega)]
      rfl
    · have hfill' : ¬ t.fill = index % t.segmentSize := by
        rw [Stack.count] at hindex'
        omega
      rw [if_neg hindex', if_neg hfill']
  · have hne : index ≠ t.count := by
      rintro rfl
      refine hsegment ?_
      rw [Stack.count, Nat.mul_comm, Nat.mul_add_div hsize, Nat.div_eq_of_lt hfill, Nat.add_zero]
    rw [if_neg hsegment, if_neg hne]

/-- **Below the limit a push appends.** -/
lemma push_run {s : Stack} (h : s.WellFormed) (hroom : s.count < s.limit) (obj : Object) :
    ∃ t, push obj s = .ok () t ∧ t.WellFormed ∧ t.toList = s.toList ++ [obj] ∧
      t.limit = s.limit := by
  obtain ⟨t, ht, hr⟩ : ∃ t, s.makeRoom = t ∧ Roomy s t := ⟨_, rfl, h.makeRoom⟩
  refine ⟨{ t.setSlot t.top t.fill obj with fill := t.fill + 1 }, ?_, ?_, ?_, hr.frame.2.1⟩
  · rw [push, if_neg (Nat.not_le.mpr hroom), ht]
    rfl
  · refine ⟨?_, fun i segment hi => ?_, ?_, hr.fill_lt, fun _ => Nat.succ_pos _, ?_⟩
    · show 0 < t.segmentSize
      rw [hr.frame.1]
      exact h.segmentSize_pos
    · simp only [setSlot, Array.getElem?_modify] at hi
      split at hi
      · obtain ⟨slots, hslots, rfl⟩ := Option.map_eq_some_iff.mp hi
        rw [Array.size_setIfInBounds]
        exact hr.segment_size i slots hslots
      · exact hr.segment_size i segment hi
    · show t.top < (t.segments.modify _ _).size
      rw [Array.size_modify]
      exact hr.top_lt
    · show t.count + 1 ≤ t.limit
      rw [hr.count, hr.frame.2.1]
      exact hroom
  · have hnew : ∀ index, ({ t.setSlot t.top t.fill obj with fill := t.fill + 1 } : Stack).slot index =
        (t.setSlot t.top t.fill obj).slot index := fun _ => rfl
    show (List.range (t.count + 1)).map _ = _
    rw [List.range_succ, List.map_append, toList]
    congr 1
    · rw [hr.count]
      refine List.map_congr_left fun index hmem => ?_
      have hlt := List.mem_range.mp hmem
      rw [hnew, hr.slot_setSlot obj (by rw [hr.count]; omega), if_neg (by rw [hr.count]; omega)]
      exact hr.slot index hlt
    · rw [List.map_singleton, hnew, hr.slot_setSlot obj (Nat.lt_succ_self _), if_pos rfl]

/-- At the limit a push changes nothing. -/
lemma push_full {s : Stack} (h : s.limit ≤ s.count) (obj : Object) :
    push obj s = .error s.overflow s := by
  rw [push, if_pos h]

lemma limit_push {s t : Stack} {obj : Object} (h : push obj s = .ok () t) :
    t.limit = s.limit ∧ t.overflow = s.overflow := by
  rw [push] at h
  split_ifs at h
  cases h
  simp only [setSlot, makeRoom]
  split_ifs <;> exact ⟨rfl, rfl⟩

/-- A push that is refused changes nothing. -/
lemma ends_push (obj : Object) (s : Stack) :
    Ends (push obj) s (fun _ t => t.limit = s.limit ∧ (s.WellFormed → t.WellFormed))
      fun _ t => t = s := by
  by_cases hfull : s.limit ≤ s.count
  · exact .of_error (push_full hfull obj) rfl
  · cases hrun : push obj s with
    | ok a t =>
        refine .of_ok hrun ⟨(limit_push hrun).1, fun hwf => ?_⟩
        obtain ⟨t', hrun', hwf', -⟩ := push_run hwf (Nat.lt_of_not_le hfull) obj
        rw [hrun] at hrun'
        injection hrun' with _ ht
        exact ht ▸ hwf'
    | error fault t =>
        rw [push, if_neg hfull] at hrun
        contradiction

/-- A push that may be refused appends as far as there is room. -/
lemma toList_finalState_push {s : Stack} (h : s.WellFormed) (obj : Object) :
    (finalState (push obj) s).toList = (s.toList ++ [obj]).take s.limit := by
  have hle := h.count_le
  by_cases hfull : s.limit ≤ s.count
  · have hcount : s.limit = s.toList.length := by
      rw [length_toList]
      omega
    rw [finalState_of_error (push_full hfull obj), hcount, List.take_left]
  · obtain ⟨t, hpush, -, hlist, -⟩ := push_run h (Nat.lt_of_not_le hfull) obj
    rw [finalState_of_ok hpush, hlist, List.take_of_length_le]
    rw [List.length_append, length_toList, List.length_singleton]
    omega

/-- **Below the limit pushing objects in order appends them.** -/
lemma pushAll_run {s : Stack} (h : s.WellFormed) {objs : List Object}
    (hroom : s.count + objs.length ≤ s.limit) :
    ∃ t, pushAll objs s = .ok () t ∧ t.WellFormed ∧ t.toList = s.toList ++ objs ∧
      t.limit = s.limit := by
  induction objs generalizing s with
  | nil => exact ⟨s, rfl, h, (List.append_nil _).symm, rfl⟩
  | cons obj rest ih =>
      rw [List.length_cons] at hroom
      obtain ⟨t, hpush, ht, hlist, hlimit⟩ := push_run h (by omega) obj
      have hcount := count_of_concat hlist
      obtain ⟨u, hrest, hu, hlist', hlimit'⟩ := ih ht (by omega)
      refine ⟨u, (bind_ok hpush).trans hrest, hu, ?_, hlimit'.trans hlimit⟩
      rw [hlist', hlist, List.append_assoc, List.singleton_append]

/-- Pushing objects in order appends them all, or the stack overflows. -/
lemma ends_pushAll {s : Stack} (h : s.WellFormed) (objs : List Object) :
    Ends (pushAll objs) s (fun _ t => t.WellFormed ∧ t.toList = s.toList ++ objs)
      fun fault _ => fault = s.overflow := by
  induction objs generalizing s with
  | nil => exact ⟨h, (List.append_nil _).symm⟩
  | cons obj rest ih =>
      by_cases hfull : s.limit ≤ s.count
      · exact Ends.bind (Ends.of_error (push_full hfull obj) rfl)
      · obtain ⟨t, hpush, ht, hlist, -⟩ := push_run h (Nat.lt_of_not_le hfull) obj
        have hoverflow : t.overflow = s.overflow := (limit_push hpush).2
        refine Ends.bind (Ends.of_ok hpush (Ends.mono (ih ht) ?_ ?_))
        · rintro _ u ⟨hu, hlist'⟩
          refine ⟨hu, ?_⟩
          rw [hlist', hlist, List.append_assoc, List.singleton_append]
        · rintro fault _ hfault
          exact hfault.trans hoverflow

/-! ## Removing -/

/-- Other counters over the same segments, pointing at fewer items. -/
structure Shortens (s t : Stack) : Prop where
  frame : t.segments = s.segments ∧ t.segmentSize = s.segmentSize ∧ t.limit = s.limit
  count_le : t.count ≤ s.count
  fill_le : t.fill ≤ t.segmentSize
  fill_pos : 0 < t.top → 0 < t.fill

lemma Shortens.wellFormed {s t : Stack} (h : Shortens s t) (hs : s.WellFormed) : t.WellFormed where
  segmentSize_pos := by rw [h.frame.2.1]; exact hs.segmentSize_pos
  segment_size := by rw [h.frame.1, h.frame.2.1]; exact hs.segment_size
  top_lt := by
    rcases Nat.eq_zero_or_pos t.top with h0 | hpos
    · rw [h0, h.frame.1]
      exact Nat.lt_of_le_of_lt (Nat.zero_le _) hs.top_lt
    · -- a top segment above the old one would hold an item above the old ones
      have hcount := h.count_le
      have hfill := h.fill_pos hpos
      have hfill' := hs.fill_le
      have htop := hs.top_lt
      rw [count, count, h.frame.2.1] at hcount
      have hle : t.top ≤ s.top := by
        rcases Nat.lt_or_ge s.top t.top with hlt | hle
        · have hmul := Nat.mul_le_mul_right s.segmentSize (Nat.succ_le_of_lt hlt)
          rw [Nat.succ_mul] at hmul
          omega
        · exact hle
      rw [h.frame.1]
      omega
  fill_le := h.fill_le
  fill_pos := h.fill_pos
  count_le := by rw [h.frame.2.2]; exact Nat.le_trans h.count_le hs.count_le

lemma Shortens.toList {s t : Stack} (h : Shortens s t) : t.toList = s.toList.take t.count := by
  have hslot : t.slot = s.slot := by
    funext index
    rw [slot, slot, h.frame.1, h.frame.2.1]
  rw [Stack.toList, Stack.toList, hslot, ← List.map_take, List.take_range,
    Nat.min_eq_left h.count_le]

lemma WellFormed.shortens_setCount {s : Stack} (h : s.WellFormed) {n : Nat} (hn : n ≤ s.count) :
    Shortens s (s.setCount n) ∧ (s.setCount n).count = n := by
  have hpos := h.segmentSize_pos
  rw [setCount]
  split
  · next h0 =>
    have hcount : ({ s with top := 0, fill := 0 } : Stack).count = n := by
      show 0 * s.segmentSize + 0 = n
      omega
    exact ⟨⟨⟨rfl, rfl, rfl⟩, Nat.le_trans (Nat.le_of_eq hcount) hn, Nat.zero_le _,
      fun h => absurd h (Nat.lt_irrefl 0)⟩, hcount⟩
  · next h0 =>
    have hdiv := Nat.div_add_mod (n - 1) s.segmentSize
    have hmod := Nat.mod_lt (n - 1) hpos
    rw [Nat.mul_comm] at hdiv
    dsimp only
    have hcount : ({ s with
        top := (n - 1) / s.segmentSize,
        fill := n - (n - 1) / s.segmentSize * s.segmentSize } : Stack).count = n := by
      show (n - 1) / s.segmentSize * s.segmentSize +
        (n - (n - 1) / s.segmentSize * s.segmentSize) = n
      omega
    refine ⟨⟨⟨rfl, rfl, rfl⟩, Nat.le_trans (Nat.le_of_eq hcount) hn, ?_, fun _ => ?_⟩, hcount⟩
    · show n - (n - 1) / s.segmentSize * s.segmentSize ≤ s.segmentSize
      omega
    · show 0 < n - (n - 1) / s.segmentSize * s.segmentSize
      omega

/-- **Dropping removes items from the end of the list.** -/
lemma drop_run {s : Stack} (h : s.WellFormed) {n : Nat} (hn : n ≤ s.count) :
    ∃ t, drop n s = .ok () t ∧ t.WellFormed ∧ t.toList = s.toList.take (s.count - n) := by
  obtain ⟨hshort, hcount⟩ := h.shortens_setCount (Nat.sub_le s.count n)
  refine ⟨_, ?_, hshort.wellFormed h, ?_⟩
  · rw [drop, if_neg (Nat.not_lt.mpr hn)]
  · rw [hshort.toList, hcount]

@[simp] lemma toList_clear (s : Stack) : s.clear.toList = [] := by
  simp [toList, clear, setCount, count]

lemma count_pos_iff {s : Stack} (h : s.WellFormed) : 0 < s.count ↔ s.fill ≠ 0 := by
  have hpos := h.fill_pos
  rw [count]
  rcases Nat.eq_zero_or_pos s.top with h0 | htop
  · rw [h0, Nat.zero_mul, Nat.zero_add]
    exact Nat.pos_iff_ne_zero
  · have := hpos htop
    omega

lemma slot_last {s : Stack} {below : List Object} {obj : Object}
    (hlist : s.toList = below ++ [obj]) :
    s.count = below.length + 1 ∧ s.slot below.length = obj := by
  have hlength : s.count = below.length + 1 := by
    rw [← length_toList, hlist, List.length_append]
    rfl
  have hget : s.toList[below.length]? = some (s.slot below.length) := by
    rw [toList, List.getElem?_map, List.getElem?_range (by omega)]
    rfl
  rw [hlist, List.getElem?_append_right (Nat.le_refl _), Nat.sub_self] at hget
  exact ⟨hlength, (Option.some.inj hget).symm⟩

lemma fromTop?_zero {s : Stack} {below : List Object} {obj : Object}
    (hlist : s.toList = below ++ [obj]) : s.fromTop? 0 = some obj := by
  obtain ⟨hlength, hslot⟩ := slot_last hlist
  rw [fromTop?, if_pos (by omega), fromBottom?, if_pos (by omega), hlength, Nat.add_sub_cancel,
    Nat.sub_zero, hslot]

/-- **Popping takes the last item of the list.** -/
lemma pop?_run {s : Stack} (h : s.WellFormed) {below : List Object} {obj : Object}
    (hlist : s.toList = below ++ [obj]) :
    ∃ t, s.pop? = some (obj, t) ∧ t.WellFormed ∧ t.toList = below ∧ t.limit = s.limit := by
  obtain ⟨hlength, hslot⟩ := slot_last hlist
  have hfill : s.fill ≠ 0 := (count_pos_iff h).mp (by omega)
  have hfill_le := h.fill_le
  have hpos := h.segmentSize_pos
  have hobj : (s.segments.getD s.top #[]).getD (s.fill - 1) Object.null = obj := by
    rw [← h.slot_eq (by omega)]
    have hindex : s.top * s.segmentSize + (s.fill - 1) = below.length := by
      rw [count] at hlength
      omega
    rw [hindex]
    exact hslot
  obtain ⟨t, hrun, hshort, hcount⟩ : ∃ t, s.pop? = some (obj, t) ∧ Shortens s t ∧
      t.count = below.length := by
    rw [pop?, if_neg hfill]
    dsimp only
    rw [hobj]
    split
    · next hedge =>
      have hmul : s.top * s.segmentSize = (s.top - 1) * s.segmentSize + s.segmentSize := by
        rw [← Nat.succ_mul, Nat.succ_eq_add_one, Nat.sub_add_cancel hedge.2]
      have hcount : ({ s with top := s.top - 1, fill := s.segmentSize } : Stack).count =
          below.length := by
        show (s.top - 1) * s.segmentSize + s.segmentSize = _
        rw [count] at hlength
        omega
      exact ⟨_, rfl, ⟨⟨rfl, rfl, rfl⟩, by omega, Nat.le_refl _, fun _ => hpos⟩, hcount⟩
    · next hedge =>
      have hcount : ({ s with fill := s.fill - 1 } : Stack).count = below.length := by
        show s.top * s.segmentSize + (s.fill - 1) = _
        rw [count] at hlength
        omega
      exact ⟨_, rfl, ⟨⟨rfl, rfl, rfl⟩, by omega, by simp only; omega,
        fun htop => by simp only at htop ⊢; omega⟩, hcount⟩
  refine ⟨t, hrun, hshort.wellFormed h, ?_, hshort.frame.2.2⟩
  rw [hshort.toList, hcount, hlist, List.take_left]

/-- What is popped was the last item. -/
lemma pop?_cases {s t : Stack} (h : s.WellFormed) {obj : Object} (hpop : s.pop? = some (obj, t)) :
    t.WellFormed ∧ s.toList = t.toList ++ [obj] := by
  have hfill : s.fill ≠ 0 := by
    intro hempty
    rw [pop?, if_pos hempty] at hpop
    contradiction
  have hne : s.toList ≠ [] := by
    intro hnil
    have hcount := (count_pos_iff h).mpr hfill
    rw [← length_toList, hnil] at hcount
    contradiction
  have hlist := (List.dropLast_concat_getLast hne).symm
  obtain ⟨t', hrun, hwf, hbelow, -⟩ := pop?_run h hlist
  rw [hpop] at hrun
  cases hrun
  exact ⟨hwf, by rw [hbelow]; exact hlist⟩

/-- Nothing is popped from an empty stack only. -/
lemma toList_of_pop?_eq_none {s : Stack} (h : s.WellFormed) (hpop : s.pop? = none) :
    s.toList = [] := by
  by_cases hne : s.toList = []
  · exact hne
  · obtain ⟨t, hrun, -⟩ := pop?_run h (List.dropLast_concat_getLast hne).symm
    rw [hpop] at hrun
    contradiction

/-! ## Positions -/

lemma fromBottom?_eq_getElem? (s : Stack) (index : Nat) : s.fromBottom? index = s.toList[index]? := by
  rw [fromBottom?, toList, List.getElem?_map]
  split_ifs with h
  · simp [List.getElem?_range h]
  · simp [h]

lemma fromTop?_eq_getElem? (s : Stack) (index : Nat) :
    s.fromTop? index = s.toList.reverse[index]? := by
  rw [fromTop?]
  split_ifs with h
  · rw [fromBottom?_eq_getElem?, List.getElem?_reverse (by simpa using h), length_toList]
  · rw [List.getElem?_eq_none (by simpa using h)]

lemma slot_setSlot {s : Stack} (h : s.WellFormed) {index : Nat} (hindex : index < s.count)
    (obj : Object) (other : Nat) :
    (s.setSlot (index / s.segmentSize) (index % s.segmentSize) obj).slot other =
      if other = index then obj else s.slot other := by
  simp only [setSlot, slot, Array.getElem?_modify]
  by_cases hsegment : index / s.segmentSize = other / s.segmentSize
  · obtain ⟨slots, hslots⟩ : ∃ slots, s.segments[other / s.segmentSize]? = some slots := by
      rw [← hsegment]
      exact ⟨_, Array.getElem?_eq_getElem (h.div_lt hindex)⟩
    have hlength := h.segment_size _ _ hslots
    have hmod := Nat.mod_lt other h.segmentSize_pos
    have hiff : index % s.segmentSize = other % s.segmentSize ↔ other = index := by
      constructor
      · intro hmod
        rw [← Nat.div_add_mod other s.segmentSize, ← hsegment, ← hmod, Nat.div_add_mod]
      · rintro rfl
        rfl
    simp only [hsegment, if_true, hslots, Option.map_some, Array.getD_eq_getD_getElem?,
      Array.getElem?_setIfInBounds, hiff]
    split_ifs with hother hlt
    · rfl
    · rw [hiff.mpr hother] at hlt
      omega
    · rfl
  · have hne : other ≠ index := by
      rintro rfl
      exact hsegment rfl
    rw [if_neg hsegment, if_neg hne]

/-- **Replacing exchanges one item of the list.** -/
lemma replaceFromBottom_run {s : Stack} (h : s.WellFormed) {index : Nat} (hindex : index < s.count)
    (obj : Object) :
    ∃ t, replaceFromBottom index obj s = .ok () t ∧ t.WellFormed ∧
      t.toList = s.toList.set index obj := by
  refine ⟨s.setSlot (index / s.segmentSize) (index % s.segmentSize) obj, ?_, ?_, ?_⟩
  · rw [replaceFromBottom, if_pos hindex]
  · refine ⟨h.segmentSize_pos, fun i segment hi => ?_, ?_, h.fill_le, h.fill_pos, h.count_le⟩
    · simp only [setSlot, Array.getElem?_modify] at hi
      split at hi
      · obtain ⟨slots, hslots, rfl⟩ := Option.map_eq_some_iff.mp hi
        rw [Array.size_setIfInBounds]
        exact h.segment_size i slots hslots
      · exact h.segment_size i segment hi
    · show s.top < (s.segments.modify _ _).size
      rw [Array.size_modify]
      exact h.top_lt
  · refine List.ext_getElem? fun i => ?_
    simp only [← fromBottom?_eq_getElem?, List.getElem?_set, fromBottom?, length_toList]
    show (if i < s.count then some _ else none) = _
    rw [slot_setSlot h hindex]
    split_ifs <;> first | rfl | omega

lemma limit_replaceFromBottom {s t : Stack} {index : Nat} {obj : Object}
    (h : replaceFromBottom index obj s = .ok () t) : t.limit = s.limit := by
  rw [replaceFromBottom] at h
  split_ifs at h
  injection h with _ ht
  rw [← ht]
  rfl

/-- Replacing from the top exchanges one item of the reversed list. -/
lemma replaceFromTop_run {s : Stack} (h : s.WellFormed) {index : Nat} (hindex : index < s.count)
    (obj : Object) :
    ∃ t, replaceFromTop index obj s = .ok () t ∧ t.WellFormed ∧ t.limit = s.limit ∧
      t.toList.reverse = s.toList.reverse.set index obj := by
  obtain ⟨t, hrun, hwf, hlist⟩ :=
    replaceFromBottom_run h (show s.count - 1 - index < s.count by omega) obj
  refine ⟨t, ?_, hwf, limit_replaceFromBottom hrun, ?_⟩
  · rw [replaceFromTop, if_pos hindex, hrun]
  · rw [hlist]
    refine List.ext_getElem? fun i => ?_
    by_cases hi : i < s.count
    · rw [List.getElem?_reverse (by simpa using hi), List.getElem?_set, List.getElem?_set,
        List.getElem?_reverse (by simpa using hi)]
      simp only [List.length_set, List.length_reverse, length_toList]
      split_ifs <;> first | rfl | omega
    · rw [List.getElem?_eq_none (by simpa using hi), List.getElem?_eq_none (by simpa using hi)]

/-! ## What stays, and the topmost mark -/

lemma limit_drop {s t : Stack} {n : Nat} (h : drop n s = .ok () t) :
    t.limit = s.limit ∧ t.overflow = s.overflow := by
  rw [drop] at h
  split_ifs at h
  cases h
  simp only [setCount]
  split_ifs <;> exact ⟨rfl, rfl⟩

/-- A drop that is refused changes nothing. -/
lemma ends_drop (n : Nat) (s : Stack) :
    Ends (drop n) s
      (fun _ t => t.limit = s.limit ∧ (s.WellFormed → t.WellFormed ∧ t.count + n = s.count))
      fun _ t => t = s := by
  by_cases hshort : s.count < n
  · exact .of_error (by rw [drop, if_pos hshort]) rfl
  · have hrun : drop n s = .ok () (s.setCount (s.count - n)) := by rw [drop, if_neg hshort]
    refine .of_ok hrun ⟨(limit_drop hrun).1, fun hwf => ?_⟩
    obtain ⟨hshortens, hcount⟩ := hwf.shortens_setCount (Nat.sub_le s.count n)
    exact ⟨hshortens.wellFormed hwf, by omega⟩

/-- Above its topmost mark a stack holds as many items as `countToMark` says. -/
lemma countToMark_eq {s : Stack} {xs ys : List Object} {mark : Object}
    (hlist : s.toList = xs ++ mark :: ys) (hmark : mark.ty = .mark)
    (hys : ∀ obj ∈ ys, obj.ty ≠ .mark) : s.countToMark = .ok ys.length := by
  have hreverse : s.toList.reverse = ys.reverse ++ mark :: xs.reverse := by
    rw [hlist, List.reverse_append, List.reverse_cons, List.append_assoc, List.singleton_append]
  have habove : ys.reverse.findIdx? (fun obj => obj.ty == .mark) = none := by
    rw [List.findIdx?_eq_none_iff]
    intro obj hobj
    exact beq_eq_false_iff_ne.mpr (hys obj (List.mem_reverse.mp hobj))
  rw [countToMark, hreverse, List.findIdx?_append, habove]
  simp [List.findIdx?_cons, hmark]

lemma topmost_above {s : Stack} {xs ys : List Object} {mark : Object}
    (hlist : s.toList = xs ++ mark :: ys) : s.topmost ys.length = ys := by
  have hcount : s.count - ys.length = (xs ++ [mark]).length := by
    rw [← length_toList, hlist, List.length_append, List.length_append, List.length_cons,
      List.length_singleton]
    omega
  have hsplit : xs ++ mark :: ys = (xs ++ [mark]) ++ ys := by
    rw [List.append_assoc, List.singleton_append]
  rw [topmost, hcount, hlist, hsplit, List.drop_left]

/-! ## Stacks of given objects -/

/-- A stack of objects, with room for eight. -/
def ofObjects (objs : List Object) : Stack :=
  finalState (pushAll objs) (create 8 8 .stackOverflow)

lemma ofObjects_run {objs : List Object} (h : objs.length ≤ 8) :
    (ofObjects objs).WellFormed ∧ (ofObjects objs).toList = objs ∧
      (ofObjects objs).limit = 8 := by
  have hroom : (create 8 8 .stackOverflow).count + objs.length ≤ 8 := by
    rw [show (create 8 8 .stackOverflow).count = 0 from rfl, Nat.zero_add]
    exact h
  obtain ⟨t, hpush, hwf, hlist, hlimit⟩ :=
    pushAll_run (wellFormed_create (Nat.succ_pos 7) 8 .stackOverflow) hroom
  rw [ofObjects, finalState_of_ok hpush]
  exact ⟨hwf, hlist, hlimit⟩

end PostScriptCore.Stack
