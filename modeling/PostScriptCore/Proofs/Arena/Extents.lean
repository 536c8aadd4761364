import PostScriptCore.Proofs.Arena
import PostScriptCore.Proofs.Step

/-!
# Bump allocation

Between any two operations the ranges an arena has handed out lie one behind the other below its cursor, and
an allocation or a growth that fails cannot be told from one that was never tried.  The mapping below the
arena may refuse to grow at any time.  All that is asked of it is that it keeps the bytes there are; what it
fills new ones with does not matter here.

* `Mapping`, `Arena.backedBy` — what lies below an arena, and an operation that has to ask it for more.
* `ArenaOp` — the operations of a run.  `Arena.afterAll`, `Arena.handedOut` — what a run leaves and answers.
* `Arena.Accounts` — the invariant: bounds, lengths, and the ranges handed out so far.
* `Arena.ends_backedBy` — an operation over a mapping ends as it would end by itself, or changes nothing.
* `Arena.keeps_after` — an allocation or a growth keeps the bytes there are.
* `Arena.accounts_perform`, `Arena.accounts_afterAll` — one operation and a whole run keep the accounts.
* `Arena.bump_allocation_safe` — the theorem.
-/

namespace PostScriptCore

/-! ## What lies below an arena -/

/-- The memory below an arena.  It is asked for another length and says whether it agrees. -/
structure Mapping where
  /-- Whether the request is granted, and the bytes from then on. -/
  resize : Image → Nat → Bool × Image
  /-- A larger length that is granted is had, and the bytes there are stay. -/
  granted : ∀ image length larger, image.length ≤ length → resize image length = (true, larger) →
    larger.length = length ∧ ∀ i < image.length, larger.byte i = image.byte i
  /-- A refusal changes nothing. -/
  refused : ∀ image length same, resize image length = (false, same) → same = image

namespace Mapping

/-- The mapping that grants every request. -/
def granting : Mapping where
  resize image length := (true, image.resize length)
  granted := by
    rintro image length larger - h
    obtain rfl := (Prod.mk.inj h).2
    exact ⟨rfl, fun _ _ => rfl⟩
  refused := fun _ _ _ h => absurd (Prod.mk.inj h).1 (by decide)

/-- The mapping that refuses every request. -/
def refusing : Mapping where
  resize image _ := (false, image)
  granted := fun _ _ _ _ h => absurd (Prod.mk.inj h).1 (by decide)
  refused := fun _ _ _ h => (Prod.mk.inj h).2.symm

end Mapping

/-- A range of bytes: where it begins, and how many were asked for. -/
structure Extent where
  offset : Nat
  size : Nat
  deriving DecidableEq

/-- The first offset past the range. -/
def Extent.stop (e : Extent) : Nat := e.offset + e.size

namespace Arena

variable {α : Type}

/-- Runs an operation over a mapping, which is asked if the operation needs another capacity. -/
def backedBy (mapping : Mapping) (x : EStateM Fault Arena α) : EStateM Fault Arena α := fun a =>
  match x a with
  | .error fault b => .error fault b
  | .ok answer b =>
    if b.max = a.max then .ok answer b
    else
      match mapping.resize a.image b.max with
      | (true, image) => .ok answer { b with image }
      | (false, image) => .error .vmFull { a with image }

end Arena

/-! ## Runs -/

/-- An operation of a run. -/
inductive ArenaOp
  | alloc (mapping : Mapping) (size : Nat)
  | grow (mapping : Mapping) (extra : Nat)
  | write (offset : Nat) (bytes : List UInt8)
  | copyWithin (source target count : Nat)

namespace ArenaOp

/-- Runs an operation.  The answer is the range that it hands out. -/
def perform : ArenaOp → EStateM Fault Arena (Option Extent)
  | alloc mapping size => (fun offset => some ⟨offset, size⟩) <$> Arena.backedBy mapping (Arena.alloc size)
  | grow mapping extra => (fun _ => none) <$> Arena.backedBy mapping (Arena.grow extra)
  | write offset bytes => (fun _ => none) <$> Arena.write offset bytes
  | copyWithin source target count => (fun _ => none) <$> Arena.copyWithin source target count

/-- Whether the operation asks for bytes or for capacity. -/
def acquires : ArenaOp → Bool
  | alloc .. | grow .. => true
  | _ => false

end ArenaOp

namespace Arena

variable {a b : Arena} {α : Type}

/-- The arena after an operation, whatever its outcome. -/
def after (a : Arena) (op : ArenaOp) : Arena := finalState op.perform a

/-- The arena after a run. -/
def afterAll (a : Arena) (ops : List ArenaOp) : Arena := ops.foldl after a

/-- The ranges that a run hands out, the first one first. -/
def handedOut : Arena → List ArenaOp → List Extent
  | _, [] => []
  | a, op :: rest => (answer? op.perform a).join.toList ++ handedOut (a.after op) rest

/-! ## Operations over a mapping -/

/-- The two arenas are the same but for the cursor, the capacity and the bytes behind it.  The capacity of `b` is
at least that of `a`, and the bytes of `a` are still there. -/
structure Keeps (a b : Arena) : Prop where
  mapped : b.mapped = a.mapped
  fileBacked : b.fileBacked = a.fileBacked
  pageSize : b.pageSize = a.pageSize
  limit : b.limit = a.limit
  max_le : a.max ≤ b.max
  length : b.image.length = b.max
  byte : ∀ i < a.max, b.image.byte i = a.image.byte i

/-- The arena with a larger capacity and another cursor, as it is without a mapping to ask. -/
def Enlarges (a b : Arena) : Prop :=
  a.max ≤ b.max ∧ b = { a with image := a.image.resize b.max, used := b.used, max := b.max }

/-- **An operation over a mapping** succeeds only as it would by itself, and otherwise changes nothing. -/
lemma ends_backedBy {mapping : Mapping} {x : EStateM Fault Arena α} (hlength : a.image.length = a.max)
    (h : Ends x a (fun _ b => a.Enlarges b) fun _ b => b = a) :
    Ends (backedBy mapping x) a
      (fun answer b => a.Keeps b ∧ ∃ c, x a = .ok answer c ∧ b.used = c.used ∧ b.max = c.max)
      fun _ b => b = a := by
  rw [Ends, backedBy]
  cases hx : x a with
  | error fault b => exact h.error_of hx
  | ok answer b =>
      obtain ⟨hmax, hb⟩ := h.ok_of hx
      dsimp only
      by_cases hsame : b.max = a.max
      · -- the image keeps its length, so that it is the old one
        have himage : a.image.resize b.max = a.image := by rw [hsame, ← hlength]; rfl
        rw [if_pos hsame]
        refine ⟨?_, b, rfl, rfl, rfl⟩
        rw [himage] at hb
        rw [hb]
        exact ⟨rfl, rfl, rfl, rfl, hmax, hlength.trans hsame.symm, fun _ _ => rfl⟩
      · rw [if_neg hsame]
        cases hanswer : mapping.resize a.image b.max with
        | mk agreed image =>
            cases agreed with
            | false => exact congrArg (fun image => { a with image }) (mapping.refused _ _ _ hanswer)
            | true =>
                obtain ⟨hlarger, hbyte⟩ := mapping.granted _ _ _ (hlength ▸ hmax) hanswer
                refine ⟨?_, b, rfl, rfl, rfl⟩
                rw [hb]
                exact ⟨rfl, rfl, rfl, rfl, hmax, hlarger, fun i hi => hbyte i (hlength ▸ hi)⟩

/-- Over a mapping that grants everything an operation does what it does by itself. -/
lemma backedBy_granting {x : EStateM Fault Arena α} (h : Ends x a (fun _ b => a.Enlarges b) fun _ b => b = a) :
    backedBy .granting x a = x a := by
  rw [backedBy]
  cases hx : x a with
  | error fault b => rfl
  | ok answer b =>
      obtain ⟨-, hb⟩ := h.ok_of hx
      dsimp only [Mapping.granting]
      split
      · rfl
      · rw [hb]

/-- A capacity the arena has already, or has after pages were added. -/
def MayReach (a : Arena) (capacity : Nat) : Prop :=
  capacity = a.max ∨
    ∃ extra more, pages extra a.pageSize = some more ∧ capacity = a.max + more ∧ capacity < wordBound ∧
      capacity ≤ a.limit

/-- Growing adds pages and leaves the cursor where it is. -/
lemma enlarges_grow (h : a.Sound) (extra : Nat) :
    Ends (grow extra) a
      (fun _ b => a.Enlarges b ∧ b.used = a.used ∧ ∃ more, pages extra a.pageSize = some more ∧
        b.max = a.max + more ∧ b.max < wordBound ∧ b.max ≤ a.limit)
      fun _ b => b = a := by
  rcases grow_cases extra h with herror | ⟨more, hmore, hword, hlimit, hrun⟩
  · exact .of_error herror rfl
  · exact .of_ok hrun ⟨⟨Nat.le_add_right _ _, rfl⟩, rfl, more, hmore, rfl, hword, hlimit⟩

/-- Allocating moves the cursor past the rounded size. -/
lemma enlarges_alloc (h : a.Sound) (hlength : a.image.length = a.max) (size : Nat) :
    Ends (alloc size) a
      (fun offset b => a.Enlarges b ∧ offset = a.used ∧
        (∃ rounded, alignUp size arenaAlign = some rounded ∧ b.used = a.used + rounded) ∧ b.used ≤ b.max ∧
        a.MayReach b.max)
      fun _ b => b = a := by
  rcases alloc_reaches size h with herror | ⟨rounded, b, hrounded, hroom, hb, hrun⟩
  · exact .of_error herror rfl
  · refine .of_ok hrun ?_
    rcases hb with rfl | ⟨extra, hgrow⟩
    · refine ⟨⟨Nat.le_refl _, ?_⟩, rfl, ⟨rounded, hrounded, rfl⟩, hroom, .inl rfl⟩
      rw [← hlength]
      rfl
    · obtain ⟨⟨hmax, hb⟩, -, more, hmore, hadds, hword, hlimit⟩ := (enlarges_grow h extra).ok_of hgrow
      refine ⟨⟨hmax, ?_⟩, rfl, ⟨rounded, hrounded, rfl⟩, hroom, .inr ⟨extra, more, hmore, hadds, hword, hlimit⟩⟩
      rw [hb]

/-! ## The accounts of an arena -/

/-- What holds of an arena between two operations.  `given` are the ranges handed out so far. -/
structure Accounts (limit : Nat) (given : List Extent) (a : Arena) : Prop where
  sound : a.Sound
  limit_eq : a.limit = limit
  max_le : a.max ≤ limit
  length : a.image.length = a.max
  used_mod : a.used % arenaAlign = 0
  aligned : ∀ e ∈ given, e.offset % arenaAlign = 0
  below : ∀ e ∈ given, e.stop ≤ a.used
  apart : given.Pairwise fun e f => e.stop ≤ f.offset

variable {limit : Nat} {given : List Extent}

/-- Nothing is handed out yet. -/
lemma accounts_init {backing : Backing} {initial pageSize : Nat}
    (h : init backing initial pageSize limit = .ok a) : a.Accounts limit [] := by
  obtain ⟨hsound, hused, hlimit, hmax⟩ := sound_of_init h
  refine ⟨hsound, hlimit, hmax, ?_, by rw [hused, Nat.zero_mod], nofun, nofun, .nil⟩
  rw [init] at h
  split at h
  · contradiction
  · split at h
    · contradiction
    · split at h
      · cases h; rfl
      · cases h; rfl
      · contradiction

lemma Accounts.max_le_of_mayReach (h : a.Accounts limit given) {capacity : Nat} (hreach : a.MayReach capacity) :
    capacity < wordBound ∧ capacity ≤ limit := by
  rcases hreach with rfl | ⟨-, -, -, -, hword, hlimit⟩
  · exact ⟨h.sound.max_lt, h.max_le⟩
  · exact ⟨hword, h.limit_eq ▸ hlimit⟩

/-- A larger capacity and a cursor further on keep the accounts of what was handed out. -/
lemma Accounts.keep (h : a.Accounts limit given) (hkeeps : a.Keeps b) (hreach : a.MayReach b.max)
    (hfits : b.used ≤ b.max) (hused : a.used ≤ b.used) (hmod : b.used % arenaAlign = 0) :
    b.Accounts limit given := by
  obtain ⟨hword, hlimit⟩ := h.max_le_of_mayReach hreach
  exact ⟨⟨hkeeps.mapped.trans h.sound.mapped, hfits, hword⟩, hkeeps.limit.trans h.limit_eq, hlimit, hkeeps.length,
    hmod, h.aligned, fun e he => Nat.le_trans (h.below e he) hused, h.apart⟩

/-- What lies between the cursor and where it was may be handed out. -/
lemma Accounts.hand (h : b.Accounts limit given) {e : Extent} (haligned : e.offset % arenaAlign = 0)
    (hbehind : ∀ f ∈ given, f.stop ≤ e.offset) (hstop : e.stop ≤ b.used) :
    b.Accounts limit (given ++ [e]) where
  sound := h.sound
  limit_eq := h.limit_eq
  max_le := h.max_le
  length := h.length
  used_mod := h.used_mod
  aligned := by
    intro f hf
    rcases List.mem_append.mp hf with hf | hf
    · exact h.aligned f hf
    · rwa [List.mem_singleton.mp hf]
  below := by
    intro f hf
    rcases List.mem_append.mp hf with hf | hf
    · exact h.below f hf
    · rwa [List.mem_singleton.mp hf]
  apart := by
    refine List.pairwise_append.mpr ⟨h.apart, List.pairwise_singleton _ _, fun f hf g hg => ?_⟩
    rw [List.mem_singleton.mp hg]
    exact hbehind f hf

/-- Other bytes do not change the accounts. -/
lemma Accounts.repaint (h : a.Accounts limit given) {image : Image} (hlength : image.length = a.image.length) :
    Accounts limit given { a with image } :=
  ⟨⟨h.sound.mapped, h.sound.used_le_max, h.sound.max_lt⟩, h.limit_eq, h.max_le, hlength.trans h.length, h.used_mod,
    h.aligned, h.below, h.apart⟩

/-! ## One operation -/

/-- Growing over a mapping keeps the accounts, and changes nothing if it fails. -/
lemma accounts_grow (h : a.Accounts limit given) (mapping : Mapping) (extra : Nat) :
    Ends (backedBy mapping (grow extra)) a (fun _ b => (a.Keeps b ∧ a.MayReach b.max) ∧ b.Accounts limit given)
      fun _ b => b = a := by
  have hgrow := enlarges_grow h.sound extra
  refine (ends_backedBy h.length (hgrow.imp fun _ _ hb => hb.1)).imp ?_
  rintro _ b ⟨hkeeps, c, hrun, hused, hmax⟩
  obtain ⟨-, hcursor, more, hmore, hadds, hword, hlimit⟩ := hgrow.ok_of hrun
  rw [hcursor] at hused
  rw [← hmax] at hadds hword hlimit
  have hreach : a.MayReach b.max := .inr ⟨extra, more, hmore, hadds, hword, hlimit⟩
  refine ⟨⟨hkeeps, hreach⟩, h.keep hkeeps hreach ?_ (Nat.le_of_eq hused.symm) ?_⟩
  · rw [hused]
    exact Nat.le_trans h.sound.used_le_max hkeeps.max_le
  · rw [hused]
    exact h.used_mod

/-- Allocating over a mapping hands out a range at the cursor, and changes nothing if it fails. -/
lemma accounts_alloc (h : a.Accounts limit given) (mapping : Mapping) (size : Nat) :
    Ends (backedBy mapping (alloc size)) a
      (fun offset b => (a.Keeps b ∧ a.MayReach b.max) ∧ b.Accounts limit (given ++ [⟨offset, size⟩]))
      fun _ b => b = a := by
  have halloc := enlarges_alloc h.sound h.length size
  refine (ends_backedBy h.length (halloc.imp fun _ _ hb => hb.1)).imp ?_
  rintro offset b ⟨hkeeps, c, hrun, hused, hmax⟩
  obtain ⟨-, rfl, ⟨rounded, hrounded, hcursor⟩, hfits, hreach⟩ := halloc.ok_of hrun
  rw [hcursor] at hused
  rw [← hmax] at hreach
  have hle : size ≤ rounded := le_of_alignUp hrounded
  have hmod : b.used % arenaAlign = 0 := by
    rw [hused, Nat.add_mod, h.used_mod, mod_arenaAlign_of_alignUp hrounded, Nat.zero_mod]
  have hkept := h.keep hkeeps hreach (by omega) (by omega) hmod
  refine ⟨⟨hkeeps, hreach⟩, hkept.hand h.used_mod h.below ?_⟩
  rw [Extent.stop, hused]
  exact Nat.add_le_add_left hle _

/-- **One operation keeps the accounts**, with the range that it hands out added to them. -/
lemma accounts_perform (h : a.Accounts limit given) (op : ArenaOp) :
    Ends op.perform a (fun answer b => b.Accounts limit (given ++ answer.toList)) fun _ b => b = a := by
  cases op with
  | alloc mapping size => exact .map ((accounts_alloc h mapping size).imp fun _ _ hb => hb.2)
  | grow mapping extra =>
      refine .map ((accounts_grow h mapping extra).imp fun _ b hb => ?_)
      rw [Option.toList_none, List.append_nil]
      exact hb.2
  | write offset bytes =>
      refine .map ?_
      rw [Ends, write]
      cases a.obstacle? offset bytes.length with
      | some fault => rfl
      | none =>
          rw [Option.toList_none, List.append_nil]
          exact h.repaint rfl
  | copyWithin source target count =>
      refine .map ?_
      rw [Ends, copyWithin]
      by_cases hsource : a.inBounds source count
      · rw [if_neg (not_not_intro hsource)]
        cases a.obstacle? target count with
        | some fault => rfl
        | none =>
            rw [Option.toList_none, List.append_nil]
            exact h.repaint rfl
      · rw [if_pos hsource]

/-- An allocation or a growth keeps the bytes there are, whatever its outcome. -/
lemma keeps_after (h : a.Accounts limit given) {op : ArenaOp} (hop : op.acquires = true) :
    a.Keeps (a.after op) ∧ a.MayReach (a.after op).max := by
  have hsame : a.Keeps a ∧ a.MayReach a.max :=
    ⟨⟨rfl, rfl, rfl, rfl, Nat.le_refl _, h.length, fun _ _ => rfl⟩, .inl rfl⟩
  rw [after]
  cases op with
  | alloc mapping size =>
      rw [ArenaOp.perform, finalState_map]
      exact ((accounts_alloc h mapping size).mono (fun _ _ hb => hb.1) fun _ _ hb => hb ▸ hsame).finalState
  | grow mapping extra =>
      rw [ArenaOp.perform, finalState_map]
      exact ((accounts_grow h mapping extra).mono (fun _ _ hb => hb.1) fun _ _ hb => hb ▸ hsame).finalState
  | write offset bytes => contradiction
  | copyWithin source target count => contradiction

/-! ## Runs -/

lemma accounts_after (h : a.Accounts limit given) (op : ArenaOp) :
    (a.after op).Accounts limit (given ++ (answer? op.perform a).join.toList) := by
  have hends := accounts_perform h op
  rw [after, finalState, answer?]
  cases hrun : op.perform a with
  | ok answer b => exact hends.ok_of hrun
  | error fault b =>
      obtain rfl := hends.error_of hrun
      rw [Option.join_none, Option.toList_none, List.append_nil]
      exact h

/-- **A run keeps the accounts**, with everything added that it hands out. -/
lemma accounts_afterAll (h : a.Accounts limit given) (ops : List ArenaOp) :
    (a.afterAll ops).Accounts limit (given ++ a.handedOut ops) := by
  induction ops generalizing a given with
  | nil =>
      rw [handedOut, List.append_nil]
      exact h
  | cons op rest ih =>
      rw [handedOut, ← List.append_assoc]
      exact ih (accounts_after h op)

/-- Nothing stands in the way of exactly the ranges below the cursor. -/
lemma Sound.obstacle?_eq_none_iff (h : a.Sound) {offset count : Nat} :
    a.obstacle? offset count = none ↔ a.inBounds offset count := by
  rw [obstacle?]
  by_cases hbounds : a.inBounds offset count
  · rw [if_neg (not_not_intro hbounds), if_pos h.mapped]
    exact iff_of_true rfl hbounds
  · rw [if_pos hbounds]
    exact iff_of_false (by simp) hbounds

/-- The ranges that can be read, overwritten, and copied. -/
lemma Sound.accessible (h : a.Sound) :
    (∀ offset count, (∃ bytes, a.read offset count = .ok bytes) ↔ a.inBounds offset count) ∧
    (∀ offset bytes, (∃ b, write offset bytes a = .ok () b) ↔ a.inBounds offset bytes.length) ∧
    ∀ source target count, (∃ b, copyWithin source target count a = .ok () b) ↔
      a.inBounds source count ∧ a.inBounds target count := by
  refine ⟨fun offset count => ?_, fun offset bytes => ?_, fun source target count => ?_⟩
  · rw [← h.obstacle?_eq_none_iff, read]
    cases a.obstacle? offset count with
    | none => exact iff_of_true ⟨_, rfl⟩ rfl
    | some fault => exact iff_of_false (fun ⟨_, hb⟩ => nomatch hb) nofun
  · rw [← h.obstacle?_eq_none_iff, write]
    cases a.obstacle? offset bytes.length with
    | none => exact iff_of_true ⟨_, rfl⟩ rfl
    | some fault => exact iff_of_false (fun ⟨_, hb⟩ => nomatch hb) nofun
  · rw [copyWithin]
    by_cases hsource : a.inBounds source count
    · rw [if_neg (not_not_intro hsource), and_iff_right hsource, ← h.obstacle?_eq_none_iff]
      cases a.obstacle? target count with
      | none => exact iff_of_true ⟨_, rfl⟩ rfl
      | some fault => exact iff_of_false (fun ⟨_, hb⟩ => nomatch hb) nofun
    · rw [if_pos hsource]
      exact iff_of_false (fun ⟨_, hb⟩ => nomatch hb) fun hboth => hsource hboth.1

/-- **Bump allocation is safe and atomic.**  After every run on a new arena, over mappings that may refuse to
grow: the cursor is below the capacity and this within the limit, and the bytes and a backing file are as long
as the capacity; the ranges handed out begin at multiples of the granule, lie below the cursor and one behind
the other; an allocation or a growth leaves every byte below the cursor alone, and changes nothing at all if it
fails; and reading, overwriting and copying succeed exactly for ranges below the cursor. -/
theorem bump_allocation_safe {backing : Backing} {initial pageSize limit : Nat} {start : Arena}
    (hstart : init backing initial pageSize limit = .ok start) (ops : List ArenaOp) {a : Arena}
    (ha : a = start.afterAll ops) :
    (a.used ≤ a.max ∧ a.max ≤ limit ∧ a.image.length = a.max ∧ ∀ file, a.file? = some file → file.length = a.max) ∧
    ((∀ e ∈ start.handedOut ops, arenaAlign ∣ e.offset ∧ e.stop ≤ a.used) ∧
      (start.handedOut ops).Pairwise fun e f => e.stop ≤ f.offset) ∧
    (∀ op : ArenaOp, op.acquires = true →
      (∀ i < a.used, (a.after op).image.byte i = a.image.byte i) ∧
      ∀ fault b, op.perform a = .error fault b → b = a) ∧
    (∀ offset count, (∃ bytes, a.read offset count = .ok bytes) ↔ a.inBounds offset count) ∧
    (∀ offset bytes, (∃ b, write offset bytes a = .ok () b) ↔ a.inBounds offset bytes.length) ∧
    ∀ source target count, (∃ b, copyWithin source target count a = .ok () b) ↔
      a.inBounds source count ∧ a.inBounds target count := by
  subst ha
  have h := accounts_afterAll (accounts_init hstart) ops
  rw [List.nil_append] at h
  have hused_le := h.sound.used_le_max
  have hfile : ∀ file, (start.afterAll ops).file? = some file → file.length = (start.afterAll ops).max := by
    intro file hfile
    rw [file?] at hfile
    split at hfile
    · obtain rfl := Option.some.inj hfile
      exact h.length
    · contradiction
  refine ⟨⟨hused_le, h.max_le, h.length, hfile⟩,
    ⟨fun e he => ⟨Nat.dvd_of_mod_eq_zero (h.aligned e he), h.below e he⟩, h.apart⟩, fun op hop => ⟨?_, ?_⟩,
    h.sound.accessible⟩
  · intro i hi
    exact (keeps_after h hop).1.byte i (Nat.lt_of_lt_of_le hi hused_le)
  · intro fault b hrun
    exact (accounts_perform h op).error_of hrun

/-- An arena of one page over a file: the second allocation grows it, a third is refused by the mapping, and a
fourth would pass the limit. -/
def growingRun : List ArenaOp :=
  [.alloc .granting 3, .alloc .granting 5000, .write 0 [1, 2, 3], .alloc .refusing 4000, .copyWithin 0 5000 3,
    .alloc .granting 12000, .alloc .granting 1]

/-- The allocations that succeed lie one behind the other, and what was copied is still there. -/
theorem bump_allocation_safe_growing : ∃ start a : Arena,
    init (.file [9] true) 1 osPageSize 12288 = .ok start ∧ a = start.afterAll growingRun ∧
      start.handedOut growingRun = [⟨0, 3⟩, ⟨8, 5000⟩, ⟨5008, 1⟩] ∧ a.used = 5016 ∧ a.max = 8192 ∧
      a.image.length = 8192 ∧ (∀ e ∈ start.handedOut growingRun, arenaAlign ∣ e.offset ∧ e.stop ≤ 5016) ∧
      ¬ ∃ bytes, a.read 5000 17 = .ok bytes := by
  obtain ⟨⟨-, -, hlength, -⟩, ⟨hgiven, -⟩, -, hread, -⟩ :=
    bump_allocation_safe (show init (.file [9] true) 1 osPageSize 12288 = .ok _ from rfl) growingRun rfl
  refine ⟨_, _, rfl, rfl, by decide +kernel, by decide +kernel, by decide +kernel, ?_, ?_, ?_⟩
  · exact hlength.trans (by decide +kernel)
  · exact hgiven
  · exact fun hbytes => absurd ((hread 5000 17).mp hbytes) (by decide +kernel)

end Arena

end PostScriptCore
