import PostScriptCore.Proofs.Memory.Room
import PostScriptCore.Proofs.Operator.Registration

/-!
# Room for registrations

A registration whose native takes as many operands as it has patterns fails for want of room only.  An
entity of the registry doubles only when it is full, so that what is asked for is bounded by the number
of definitions.

* `OperatorTable.entryCost`, `OperatorTable.signatureCost` — the most bytes a longer entity costs.
* `OperatorTable.affords_declare`, `OperatorTable.affords_reserveSignature` — the parts.
* `OperatorTable.affords_cons` — a registration that has room succeeds.
-/

namespace PostScriptCore.OperatorTable

open Memory (Offers Spends Replaces Threaded)

variable {ν α : Type} {bytes rows count : Nat} {s : OperatorTable ν × Memory}
  {ls : List (Listing ν)}

/-- The most bytes it costs to enter one more name after `count` others. -/
def entryCost (count : Nat) : Nat := 2 * ((count + 1) * entrySize) + 7

/-- The most bytes it costs to add one more signature after `count` others. -/
def signatureCost (count : Nat) : Nat := 2 * ((count + 1) * signatureSize) + 7

lemma entryCost_mono {n : Nat} (h : n ≤ count) : entryCost n ≤ entryCost count := by
  simp only [entryCost, entrySize]
  omega

lemma signatureCost_mono {n : Nat} (h : n ≤ count) : signatureCost n ≤ signatureCost count := by
  simp only [signatureCost, signatureSize]
  omega

lemma affords_onMemory {x : MemoryM α} {P : α → Memory → Prop} (h : Affords id bytes rows x s.2 P) :
    Affords Prod.snd bytes rows (onMemory x) s fun a u => u.1 = s.1 ∧ P a u.2 :=
  Ends.focus (Ends.mono h (fun _ _ hn => ⟨hn.1, rfl, hn.2⟩) fun _ _ hn => hn)

/-- Writing into an entity that is large enough. -/
lemma affords_put (hs : s.2.Sound) {id offset : Nat} {cell : Cell} {bytes : List UInt8}
    (hcell : s.2.cell? id = some cell) (hfit : offset + bytes.length ≤ cell.bytes.length) :
    Affords Prod.snd 0 0 (onMemory (Memory.put id offset bytes)) s fun _ u => u.1 = s.1 ∧
      Replaces s.2 u.2 id ⟨cell.tag, patched cell.bytes offset bytes⟩ := by
  obtain ⟨n, hrun, hn⟩ := Memory.put_replaces hs hcell hfit
  exact affords_onMemory (P := fun _ n => Replaces s.2 n id _)
    (Memory.affords_of_standing (Memory.follows_put _ _ _) hrun hn)

lemma affords_modifyTable (f : OperatorTable ν → OperatorTable ν) :
    Affords Prod.snd 0 0 (modifyTable f) s fun _ u => u = (f s.1, s.2) :=
  .of_ok rfl (.refl _) rfl

/-- What an operation leaves settled is there, because there is room for the numbers of the entities. -/
lemma Settled.here {Q : Condition ν} (h : Settled count Q s) (hroom : Offers bytes rows s.2) :
    Q s.1 s.2 :=
  h.holds hroom.count_le

/-! ## Declaring a name -/

/-- **Room for an entry** is made if there is room for entities twice as large. -/
lemma affords_reserveEntry (h : Threaded s.2) (hstores : Stores s.1 s.2 ls)
    (hfirst : ls = [] → HasRoom s.1 s.2) (hroom : Offers (entryCost ls.length) 1 s.2) :
    Affords Prod.snd (entryCost ls.length) 1 reserveEntry s fun _ _ => True := by
  have hstorage := hroom.storage
  have hword := hroom.arenaLimit
  obtain ⟨cell, hcell, hsystem, hpacked⟩ := hstores.enters
  obtain ⟨row, -, hrow, -, hsize, -⟩ := Memory.row_of_cell hcell
  have hlength := hpacked.length_le
  rw [List.length_map] at hlength
  refine .get_bind ?_
  dsimp only
  simp only [entryCost] at hroom hstorage ⊢
  rw [hstores.size, if_neg (by omega)]
  refine Affords.after (P := fun found u => found = row ∧ u = s) (.query (Memory.row_ok hrow))
    fun found u _ hu => ?_
  obtain ⟨rfl, rfl⟩ := hu
  split
  · next hfull =>
    have hsome : ls ≠ [] := by
      intro hnone
      obtain ⟨cell', hcell', hfit⟩ := hfirst hnone
      obtain rfl := Option.some.inj (hcell.symm.trans hcell')
      rw [hstores.size] at hfit
      omega
    have hlarger : larger (if 2 * found.size < wordBound then 2 * found.size else wordBound - 1)
        ((ls.length + 1) * entrySize) ≤ 2 * ((ls.length + 1) * entrySize) := by
      rw [larger]
      split <;> split <;> omega
    have hpos := List.length_pos_of_ne_nil hsome
    have hlink : Memory.linkSize ≤ cell.bytes.length := by
      simp only [entrySize] at hlength
      simp only [Memory.linkSize]
      omega
    refine ((affords_onMemory (Memory.affords_reallocWithoutGc h hcell hsystem hlink
      (hroom.mono (Nat.add_le_add_right hlarger 7) (Nat.le_refl _)))).bind (b := 0) (r := 0)
      fun target v _ _ => ?_).mono (Nat.add_le_add_right hlarger 7) (Nat.le_refl _) fun _ _ hv => hv
    exact .of_ok rfl (.refl _) trivial
  · exact .of_ok rfl (.refl _) trivial

/-- **A name** is declared if there is room for its entry. -/
lemma affords_declare (name : Nat) (h : Settled count (fun t m => t = s.1 ∧ Stores t m ls) s)
    (hfirst : ls = [] → HasRoom s.1 s.2) (hroom : Offers (entryCost ls.length) 1 s.2) :
    Affords Prod.snd (entryCost ls.length) 1 (declare name) s fun _ _ => True := by
  have hstores := (h.here hroom).2
  refine .get_bind ?_
  split
  · exact .of_ok rfl (.refl _) trivial
  · refine (((affords_reserveEntry h.threaded hstores hfirst hroom).knowing (within_reserveEntry h)).bind
      (b := 0) (r := 0) fun _ u hu hsettled => ?_).mono (Nat.le_refl _) (Nat.le_refl _)
      fun _ _ hv => hv
    obtain ⟨-, hstores', cell, hcell, hfit⟩ :=
      hsettled.here (hroom.spend (b := 0) (r := 0) hu)
    refine .get_bind (.after (P := fun _ _ => True) (.get_bind ?_) fun _ v _ _ =>
      (affords_modifyTable _).after fun _ _ _ _ => .pure trivial)
    refine (affords_put hsettled.threaded.sound hcell ?_).mono (Nat.le_refl _) (Nat.le_refl _)
      fun _ _ _ => trivial
    rw [OperatorEntry.length_encode, ← Nat.succ_mul]
    exact hfit

/-! ## Appending a signature -/

/-- **Room for a signature** is made if there is room for a list twice as long. -/
lemma affords_reserveSignature {opcode : Nat} {l : Listing ν} (h : Threaded s.2)
    (hstores : Stores s.1 s.2 ls) (hl : ls[opcode]? = some l)
    (hroom : Offers (signatureCost l.registrations.length) 1 s.2) :
    Affords Prod.snd (signatureCost l.registrations.length) 1 (reserveSignature l.entry) s
      fun _ _ => True := by
  have hmem := mem_of_getElem? hl
  have hstorage := hroom.storage
  have hword := hroom.arenaLimit
  rw [reserveSignature]
  simp only [signatureCost] at hroom hstorage ⊢
  split
  · have hsmall : 2 * signatureSize ≤ 2 * ((l.registrations.length + 1) * signatureSize) := by
      simp only [signatureSize]
      omega
    exact (affords_onMemory (Memory.affords_allocateWithoutGc h _
      (hroom.mono (Nat.add_le_add_right hsmall 7) (Nat.le_refl _)))).mono
        (Nat.add_le_add_right hsmall 7) (Nat.le_refl _) fun _ _ _ => trivial
  · next hsome =>
    obtain ⟨cell, hcell, hsystem, hpacked⟩ := hstores.begins l hmem hsome
    obtain ⟨row, -, hrow, -, hsize, -⟩ := Memory.row_of_cell hcell
    have hlength := hpacked.length_le
    rw [Listing.signatures, List.length_map] at hlength
    have hpos : l.registrations ≠ [] := fun hnone => hsome ((hstores.empty l hmem).mpr hnone)
    have hpos' := List.length_pos_of_ne_nil hpos
    refine (Affords.query (f := fun s : OperatorTable ν × Memory => s.2.row l.entry.signatures)
      (Memory.row_ok hrow)).after fun found u _ hu => ?_
    obtain ⟨rfl, rfl⟩ := hu
    split
    · next hfull =>
      have hfull' : found.size < (l.registrations.length + 1) * signatureSize := hfull
      have hlink : Memory.linkSize ≤ cell.bytes.length := by
        simp only [signatureSize] at hlength
        simp only [Memory.linkSize]
        omega
      have hdouble : 2 * found.size ≤ 2 * ((l.registrations.length + 1) * signatureSize) := by omega
      rw [if_neg (by omega)]
      refine (affords_onMemory (Memory.affords_reallocWithoutGc h hcell hsystem hlink
        (hroom.mono (Nat.add_le_add_right hdouble 7) (Nat.le_refl _)))).mono
          (Nat.add_le_add_right hdouble 7) (Nat.le_refl _) fun _ _ _ => trivial
    · exact .of_ok rfl (.refl _) trivial

/-- No name has more definitions than there are natives. -/
lemma Lists.registrations_le {t : OperatorTable ν} {m : Memory} (h : Lists t m ls) {l : Listing ν}
    (hl : l ∈ ls) : l.registrations.length ≤ t.natives.size := by
  rw [h.total]
  exact List.le_sum_of_mem (List.mem_map.mpr ⟨l, hl, rfl⟩)

/-- Declaring a name registers no native. -/
lemma natives_declared {t t' : OperatorTable ν} {m m' : Memory} {name : Nat} (h : Lists t m ls)
    (h' : Lists t' m' (declared ls name)) : t'.natives.size = t.natives.size := by
  rw [h.total, h'.total, declared]
  split <;> simp

lemma length_declared_le (ls : List (Listing ν)) (name : Nat) :
    (declared ls name).length ≤ ls.length + 1 := by
  rw [declared]
  split
  · exact Nat.le_succ _
  · simp

variable [NativeArity ν]

/-- The most bytes a registration costs when there are at most `count` names and as many natives. -/
def consCost (count : Nat) : Nat := entryCost count + signatureCost count

/-- **A registration** whose native takes as many operands as there are patterns succeeds if there is
room for it. -/
lemma affords_cons {name outArity : Nat} {native : ν} {patterns : List Pattern}
    (hname : name < wordBound) (harity : NativeArity.arity native = patterns.length)
    (hpatterns : patterns.length ≤ maxArity) {rows : Nat}
    (h : Settled rows (fun t m => t = s.1 ∧ Stores t m ls) s)
    (hfirst : ls = [] → HasRoom s.1 s.2) (hlength : ls.length ≤ count)
    (hnatives : s.1.natives.size ≤ count) (hroom : Offers (consCost count) 2 s.2) :
    Affords Prod.snd (consCost count) 2 (cons name native outArity patterns) s fun _ _ => True := by
  have hentry := entryCost_mono hlength
  have hstores := (h.here hroom).2
  have hdeclare := affords_declare name h hfirst
    (hroom.mono (Nat.le_trans hentry (Nat.le_add_right _ _)) (Nat.le_succ 1))
  rw [cons, if_neg (by omega)]
  refine ((hdeclare.mono hentry (Nat.le_refl 1) fun _ _ hu => hu).knowing
    (within_declare hname h)).bind (b := signatureCost count) (r := 1)
    fun opcode u hu hsettled => ?_
  have hroom' : Offers (signatureCost count) 1 u.2 := hroom.spend hu
  obtain ⟨hstores', l, hl, -⟩ := hsettled.here hroom'
  have hcount : l.registrations.length ≤ count :=
    Nat.le_trans (hstores'.registrations_le (mem_of_getElem? hl))
      (Nat.le_trans (natives_declared hstores.toLists hstores'.toLists).le hnatives)
  have hcost := signatureCost_mono hcount
  refine (Affords.query (f := fun s : OperatorTable ν × Memory => s.1.entry s.2 opcode)
    (hstores'.entry hsettled.threaded.sound hroom'.count_le hl)).after fun entry v _ hv => ?_
  obtain ⟨rfl, rfl⟩ := hv
  have hreserve := affords_reserveSignature hsettled.threaded hstores' hl
    (hroom'.mono hcost (Nat.le_refl 1))
  have hkept : Settled v.2.entityCount (fun t m => t = v.1 ∧ m = v.2 ∧ Stores t m (declared ls name) ∧
      (declared ls name)[opcode]? = some l ∧ l.entry = l.entry) v :=
    ⟨hsettled.threaded, Nat.le_refl _, fun _ => ⟨rfl, rfl, hstores', hl, rfl⟩⟩
  refine (((hreserve.mono hcost (Nat.le_refl 1) fun _ _ hw => hw).knowing
    (within_reserveSignature hkept)).bind (b := 0) (r := 0) fun list w hw hreserved => ?_).mono
    (Nat.le_refl _) (Nat.le_refl _) fun _ _ hx => hx
  obtain ⟨ht, -, hreserved'⟩ := hreserved.here (hroom'.spend (b := 0) (r := 0) hw)
  refine .get_bind ?_
  -- the signature fits behind the others, and then the entry is written in its place
  let r : Registration ν := ⟨⟨patterns, UInt8.ofNat outArity, native⟩, w.1.natives.size⟩
  obtain ⟨cell, hcell, -, hfit, hwritten⟩ := hreserved'.written (r := r) hpatterns
  have hsignature : r.signature = Signature.ofPatterns patterns outArity w.1.natives.size :=
    signature_ofNat ..
  rw [hsignature] at hfit hwritten
  refine (affords_put hreserved.threaded.sound hcell hfit).after fun _ y _ hy => ?_
  obtain ⟨hy, hreplaces⟩ := hy
  refine (affords_modifyTable _).after fun _ z _ hz => ?_
  subst hz
  refine .after (P := fun _ _ => True) (.get_bind ?_) fun _ _ _ _ => .pure trivial
  have hdone := hwritten y.2 hreplaces
  obtain ⟨cell', hcell', -, hpacked⟩ := hdone.stores.enters
  have hat : ((declared ls name).map Listing.entry)[opcode]? = some l.entry := by
    rw [List.getElem?_map, hl]
    rfl
  have hheld : y.2.cell? y.1.entries = some cell' := by
    rw [hy]
    exact hdone.entries.trans hcell'
  refine (affords_put (s := ({ y.1 with natives := y.1.natives.push native }, y.2)) hreplaces.sound
    hheld ?_).mono (Nat.le_refl _) (Nat.le_refl _) fun _ _ _ => trivial
  rw [OperatorEntry.length_encode, ← Nat.succ_mul]
  exact (hpacked opcode _ hat).1

end PostScriptCore.OperatorTable
