import PostScriptCore.Memory.Composite
import PostScriptCore.Proofs.Memory.Run
import Mathlib.Control.Monad.Basic

/-!
# Views of composites

An interval of a composite is a composite over the same entity.  Intervals of intervals are again intervals of
the whole, so that no number of steps leads out of it, and an element of a view is an element of the whole.

* `Object.IsViewAt` — what a view has to do with the whole; `Object.interval_eq_ok_iff` says that intervals are
  just these.
* `Object.narrow` — intervals taken one after the other; `Object.isViewAt_of_narrow` says that they come to one.
* `Object.exists_interval_iff`, `Object.exists_interval_of_fits` — when there is an interval.
* `Memory.arrayGet_view` — the elements of a view of an array.
* `Memory.views_stay_inside` — the theorem.
-/

namespace PostScriptCore

namespace Object

variable {obj view rest : Object} {skip length stride : Nat}

/-- A view of a composite that begins `skip` elements in, where an element is `stride` bytes wide.  It differs
from the whole in where it begins and how long it is, and it ends where the whole ends or before. -/
structure IsViewAt (obj : Object) (skip stride : Nat) (view : Object) : Prop where
  same : view = { obj with offset := view.offset, length := view.length }
  offset : view.offset.toNat = obj.offset.toNat + skip * stride
  length : skip + view.length.toNat ≤ obj.length.toNat

/-- **The intervals of a composite are its views.** -/
lemma interval_eq_ok_iff : obj.interval skip length stride = .ok view ↔
    obj.isComposite = true ∧ obj.IsViewAt skip stride view ∧ view.length.toNat = length := by
  rw [interval]
  constructor
  · intro h
    split at h
    · next hfits =>
      obtain ⟨hcomposite, hlength, hoffset⟩ := hfits
      obtain rfl := Except.ok.inj h
      have hkept : (UInt32.ofNat length).toNat = length :=
        UInt32.toNat_ofNat_of_lt' (Nat.lt_of_le_of_lt (Nat.le_of_add_left_le hlength) obj.length.toNat_lt)
      exact ⟨hcomposite, ⟨rfl, UInt32.toNat_ofNat_of_lt' hoffset, by rw [hkept]; exact hlength⟩, hkept⟩
    · contradiction
  · rintro ⟨hcomposite, ⟨hsame, hoffset, hlength⟩, rfl⟩
    rw [if_pos ⟨hcomposite, hlength, hoffset ▸ view.offset.toNat_lt⟩, ← hoffset, UInt32.ofNat_toNat,
      UInt32.ofNat_toNat, ← hsame]

/-- **There is an interval** if the object is a composite, the interval lies inside it, and it begins at a word. -/
lemma exists_interval_iff : (∃ view, obj.interval skip length stride = .ok view) ↔
    obj.isComposite = true ∧ skip + length ≤ obj.length.toNat ∧
      obj.offset.toNat + skip * stride < wordBound := by
  rw [interval]
  split
  · next hfits => exact ⟨fun _ => hfits, fun _ => ⟨_, rfl⟩⟩
  · next hfits =>
    refine ⟨fun h => ?_, fun h => absurd h hfits⟩
    obtain ⟨view, h⟩ := h
    contradiction

/-- What lies inside a composite begins at a word if the composite ends at one. -/
lemma exists_interval_of_fits (hcomposite : obj.isComposite = true)
    (hfits : obj.offset.toNat + obj.length.toNat * stride < wordBound)
    (hlength : skip + length ≤ obj.length.toNat) : ∃ view, obj.interval skip length stride = .ok view := by
  refine exists_interval_iff.mpr ⟨hcomposite, hlength, Nat.lt_of_le_of_lt ?_ hfits⟩
  exact Nat.add_le_add_left (Nat.mul_le_mul_right _ (Nat.le_of_add_right_le hlength)) _

/-! ## Views of views -/

lemma IsViewAt.refl (obj : Object) (stride : Nat) : obj.IsViewAt 0 stride obj where
  same := rfl
  offset := by rw [Nat.zero_mul, Nat.add_zero]
  length := Nat.le_of_eq (Nat.zero_add _)

lemma isProc_iff : obj.isProc = true ↔ obj.ty = .array ∧ obj.executable = true := by
  rw [isProc, Bool.and_eq_true, beq_iff_eq]

lemma IsViewAt.isProc (h : obj.IsViewAt skip stride view) : view.isProc = obj.isProc := by
  rw [h.same]
  rfl

/-- **A view of a view** is a view of the whole, as far in as the two together. -/
lemma IsViewAt.trans {more : Nat} (h : obj.IsViewAt skip stride view) (h' : view.IsViewAt more stride rest) :
    obj.IsViewAt (skip + more) stride rest where
  same := by rw [h'.same, h.same]
  offset := by rw [h'.offset, h.offset, Nat.add_mul, Nat.add_assoc]
  length := by
    have hview := h.length
    have hrest := h'.length
    omega

/-- A view of the whole that begins and ends inside another one is a view of that one. -/
lemma IsViewAt.of_inside {more : Nat} (h : obj.IsViewAt skip stride view)
    (h' : obj.IsViewAt (skip + more) stride rest) (hlength : more + rest.length.toNat ≤ view.length.toNat) :
    view.IsViewAt more stride rest where
  same := by rw [h.same]; exact h'.same
  offset := by rw [h'.offset, h.offset, Nat.add_mul, Nat.add_assoc]
  length := hlength

/-- **A view covers bytes of the whole only.** -/
lemma IsViewAt.inside (h : obj.IsViewAt skip stride view) :
    obj.offset.toNat ≤ view.offset.toNat ∧
      view.offset.toNat + view.length.toNat * stride ≤ obj.offset.toNat + obj.length.toNat * stride := by
  rw [h.offset]
  refine ⟨Nat.le_add_right _ _, ?_⟩
  calc obj.offset.toNat + skip * stride + view.length.toNat * stride
      = obj.offset.toNat + (skip + view.length.toNat) * stride := by rw [Nat.add_assoc, Nat.add_mul]
    _ ≤ obj.offset.toNat + obj.length.toNat * stride :=
        Nat.add_le_add_left (Nat.mul_le_mul_right _ h.length) _

/-- A part that is cut out of a composite: so many elements are passed over, and so many are kept. -/
structure Cut where
  skip : Nat
  length : Nat

/-- The parts that are cut out of a composite one after the other, each out of the one before. -/
def narrow (obj : Object) (stride : Nat) : List Cut → Except Fault Object
  | [] => .ok obj
  | cut :: rest =>
    match obj.interval cut.skip cut.length stride with
    | .ok view => view.narrow stride rest
    | .error fault => .error fault

/-- How many elements the cuts pass over together. -/
def skipped : List Cut → Nat
  | [] => 0
  | cut :: rest => cut.skip + skipped rest

/-- **Cuts one after the other come to one view**, as long as the last of them says. -/
lemma isViewAt_of_narrow {cuts : List Cut} (h : obj.narrow stride cuts = .ok view) :
    obj.IsViewAt (skipped cuts) stride view ∧
      view.length.toNat = (cuts.map Cut.length).getLastD obj.length.toNat := by
  induction cuts generalizing obj with
  | nil =>
      obtain rfl := Except.ok.inj h
      exact ⟨.refl obj stride, rfl⟩
  | cons cut cuts ih =>
      rw [narrow] at h
      split at h
      · next first hfirst =>
        obtain ⟨-, hview, hlength⟩ := interval_eq_ok_iff.mp hfirst
        obtain ⟨hrest, hlast⟩ := ih h
        refine ⟨hview.trans hrest, ?_⟩
        rw [hlast, hlength, List.map_cons, List.getLastD_cons]
      · contradiction

end Object

namespace Memory

variable {m : Memory} {obj view : Object} {skip i : Nat}

/-! ## Elements -/

/-- **The elements of a view of an array** are those of the array, from where the view begins. -/
lemma arrayGet_view (h : obj.IsViewAt skip objectSize view) (hi : i < view.length.toNat) :
    m.arrayGet view i = m.arrayGet obj (skip + i) := by
  have htype : expectType view .array = expectType obj .array := by rw [h.same]; rfl
  have hreadable : elementsReadable view = elementsReadable obj := by rw [h.same]; rfl
  have helement : elementOffset view i = elementOffset obj (skip + i) := by
    rw [elementOffset, elementOffset, h.offset, Nat.add_mul, Nat.add_assoc]
  have hinside : ¬ obj.length.toNat ≤ skip + i := by
    have := h.length
    omega
  rw [arrayGet, arrayGet, htype, hreadable, helement]
  simp only [if_neg (Nat.not_le_of_lt hi), if_neg hinside]

/-- The object is a view of an array, and its bytes lie inside the storage of its entity. -/
def HoldsArray (m : Memory) (obj : Object) : Prop :=
  obj.ty = .array ∧ ∃ row, m.row obj.value.toNat = .ok row ∧ row.size < wordBound ∧
    obj.offset.toNat + obj.length.toNat * objectSize ≤ row.size

lemma HoldsArray.exists_interval (h : HoldsArray m obj) {length : Nat} (hlength : skip + length ≤ obj.length.toNat) :
    ∃ view, obj.interval skip length objectSize = .ok view := by
  obtain ⟨htype, row, -, hsize, hends⟩ := h
  have hcomposite : obj.isComposite = true := by rw [Object.isComposite, htype]; rfl
  exact Object.exists_interval_of_fits hcomposite (Nat.lt_of_le_of_lt hends hsize) hlength

/-- **Views never leave their composite.**  Intervals taken one after the other are one interval, over the same
entity with the same attributes, and inside the bytes of the composite.  There is an interval exactly where it
lies inside the composite and begins at a word.  The elements of an interval of an array are elements of the
array, and an array that lies inside its storage has all its intervals. -/
theorem views_stay_inside (m : Memory) (obj : Object) (stride : Nat) :
    (∀ cuts view, obj.isComposite = true → obj.narrow stride cuts = .ok view →
      obj.interval (Object.skipped cuts) view.length.toNat stride = .ok view ∧
      view.length.toNat = (cuts.map Object.Cut.length).getLastD obj.length.toNat ∧
      view = { obj with offset := view.offset, length := view.length } ∧
      obj.offset.toNat ≤ view.offset.toNat ∧
      view.offset.toNat + view.length.toNat * stride ≤ obj.offset.toNat + obj.length.toNat * stride) ∧
    (∀ skip length, (∃ view, obj.interval skip length stride = .ok view) ↔
      obj.isComposite = true ∧ skip + length ≤ obj.length.toNat ∧ skip * stride < wordBound ∧
        obj.offset.toNat + skip * stride < wordBound) ∧
    (∀ skip length view, obj.interval skip length objectSize = .ok view →
      ∀ i < length, m.arrayGet view i = m.arrayGet obj (skip + i)) ∧
    (m.HoldsArray obj → ∀ skip length, skip + length ≤ obj.length.toNat →
      ∃ view, obj.interval skip length objectSize = .ok view) := by
  refine ⟨fun cuts view hcomposite hcuts => ?_, fun skip length => ?_, fun skip length view hview i hi => ?_,
    fun hholds skip length hlength => hholds.exists_interval hlength⟩
  · obtain ⟨hview, hlast⟩ := Object.isViewAt_of_narrow hcuts
    exact ⟨Object.interval_eq_ok_iff.mpr ⟨hcomposite, hview, rfl⟩, hlast, hview.same, hview.inside⟩
  · rw [Object.exists_interval_iff]
    -- A beginning that is a word is at least as far in as the bytes that are passed over.
    exact and_congr_right fun _ => and_congr_right fun _ =>
      ⟨fun h => ⟨Nat.lt_of_le_of_lt (Nat.le_add_left _ _) h, h⟩, And.right⟩
  · obtain ⟨-, hat, rfl⟩ := Object.interval_eq_ok_iff.mp hview
    exact arrayGet_view hat hi

/-- There is a procedure of four elements. -/
def fourElementsRun : List MemoryOp := [.newProc [.int 10, .int 11, .int 12, .int 13] []]

/-- The procedure. -/
def fourElements : Object := { Object.composite .array .localVM 1 0 4 with executable := true }

/-- Two cuts leave the last two elements of a procedure. -/
theorem views_stay_inside_twice :
    ∃ view, fourElements.isComposite = true ∧ fourElements.narrow objectSize [⟨1, 3⟩, ⟨1, 2⟩] = .ok view ∧
      fourElements.interval 2 2 objectSize = .ok view ∧
      view = { fourElements with offset := 32, length := 2 } ∧
      (freshLocal.afterAll fourElementsRun).HoldsArray fourElements ∧
      (freshLocal.afterAll fourElementsRun).arrayGet view 1 =
        (freshLocal.afterAll fourElementsRun).arrayGet fourElements 3 ∧
      (freshLocal.afterAll fourElementsRun).arrayGet view 1 = .ok (.int 13) ∧
      ∃ last, fourElements.interval 3 1 objectSize = .ok last := by
  have hcuts : fourElements.narrow objectSize [⟨1, 3⟩, ⟨1, 2⟩] =
      .ok { fourElements with offset := 32, length := 2 } := by decide +kernel
  have hholds : (freshLocal.afterAll fourElementsRun).HoldsArray fourElements :=
    ⟨rfl, ⟨0, 64, Mark.createdAt 0, Tag.ofKind .array⟩, by decide +kernel, by decide, by decide⟩
  obtain ⟨hnarrow, -, hget, hexists⟩ :=
    views_stay_inside (freshLocal.afterAll fourElementsRun) fourElements objectSize
  obtain ⟨hone, -⟩ := hnarrow _ _ rfl hcuts
  exact ⟨_, rfl, hcuts, hone, rfl, hholds, hget 2 2 _ hone 1 (by decide), by decide +kernel,
    hexists hholds 3 1 (by decide)⟩

end Memory

end PostScriptCore
