import PostScriptCore.Proofs.Operator.Storage
import Mathlib.Data.List.Find

/-!
# Which signature the operands fit

The stack is read from its top down and the patterns are kept from the deepest operand up.  Put
together, a signature fits when its patterns accept the topmost operands one by one; the quick checks
say the same, and the first signature that fits is the one that is selected.

* `Pattern.acceptTop` — the patterns accept the topmost items of a list.
* `Signature.fits_ofPatterns` — how a signature relates to a stack, in terms of lists.
* `Signature.passes_iff_fits` — a quick check decides what it stands for.
* `OperatorTable.Stores.select` — selecting a signature is finding the first one.
-/

namespace PostScriptCore

/-- The patterns accept the topmost items one by one, the deepest first. -/
def Pattern.acceptTop (patterns : List Pattern) (items : List Object) : Bool :=
  decide (patterns.length ≤ items.length) &&
    (patterns.zip (items.drop (items.length - patterns.length))).all fun x => x.1.accepts x.2

lemma Pattern.acceptTop_append {patterns : List Pattern} {below args : List Object}
    (h : args.length = patterns.length) :
    acceptTop patterns (below ++ args) = (patterns.zip args).all fun x => x.1.accepts x.2 := by
  have hdrop : (below ++ args).length - patterns.length = below.length := by
    rw [List.length_append]
    omega
  rw [acceptTop, hdrop, List.drop_left, decide_eq_true (by rw [List.length_append]; omega),
    Bool.true_and]

lemma Pattern.acceptTop_short {patterns : List Pattern} {items : List Object}
    (h : items.length < patterns.length) : acceptTop patterns items = false := by
  rw [acceptTop, decide_eq_false (by omega), Bool.false_and]

/-- The definition takes these operands. -/
def Definition.accepts {ν : Type} (d : Definition ν) (items : List Object) : Bool :=
  Pattern.acceptTop d.patterns items

namespace Signature

variable {patterns : List Pattern} {out number : Nat} {operands : Stack}

lemma acceptsAt_ofPatterns (out number : Nat) (h : patterns.length ≤ maxArity) {i : Nat} (hi : i < patterns.length)
    (hcount : patterns.length ≤ operands.toList.length) :
    (ofPatterns patterns out number).acceptsAt operands (patterns.length - 1 - i) =
      patterns[i].accepts
        (operands.toList[operands.toList.length - patterns.length + i]) := by
  have hobj : operands.fromTop? (patterns.length - 1 - i) =
      some (operands.toList[operands.toList.length - patterns.length + i]) := by
    rw [Stack.fromTop?_eq_getElem?, List.getElem?_reverse (by omega)]
    have he : operands.toList.length - 1 - (patterns.length - 1 - i) =
        operands.toList.length - patterns.length + i := by omega
    rw [he, List.getElem?_eq_getElem]
  have hpattern : (ofPatterns patterns out number).pattern?
      (patterns.length - 1 - (patterns.length - 1 - i)) = some patterns[i] := by
    rw [pattern?_ofPatterns h, show patterns.length - 1 - (patterns.length - 1 - i) = i by omega,
      List.getElem?_eq_getElem hi]
  rw [acceptsAt, toNat_inArity_ofPatterns h, hobj, hpattern]

/-- **How a signature relates to a stack.** -/
lemma fits_ofPatterns (h : patterns.length ≤ maxArity) (operands : Stack) :
    (ofPatterns patterns out number).fits operands =
      if operands.count < patterns.length then .short
      else if Pattern.acceptTop patterns operands.toList then .full
      else .mistyped := by
  rw [fits, toNat_inArity_ofPatterns h]
  split
  · rfl
  · next hcount =>
    have hcount : patterns.length ≤ operands.toList.length := by
      rw [Stack.length_toList]
      omega
    congr 1
    rw [Pattern.acceptTop, decide_eq_true hcount, Bool.true_and, eq_iff_iff,
      List.all_eq_true, List.all_eq_true]
    constructor
    · intro hall x hx
      obtain ⟨i, hi, rfl⟩ := List.mem_iff_getElem.mp hx
      have hi' : i < patterns.length := by
        rw [List.length_zip] at hi
        omega
      have haccepts := hall (patterns.length - 1 - i) (List.mem_range.mpr (by omega))
      rw [acceptsAt_ofPatterns out number h hi' hcount] at haccepts
      rw [List.getElem_zip, List.getElem_drop]
      exact haccepts
    · intro hall depth hdepth
      rw [List.mem_range] at hdepth
      have hi : patterns.length - 1 - depth <
          (patterns.zip (operands.toList.drop (operands.toList.length - patterns.length))).length := by
        rw [List.length_zip, List.length_drop]
        omega
      have haccepts := hall _ (List.getElem_mem hi)
      rw [List.getElem_zip, List.getElem_drop,
        ← acceptsAt_ofPatterns out number h (by omega) hcount] at haccepts
      rwa [show patterns.length - 1 - (patterns.length - 1 - depth) = depth by omega] at haccepts

lemma fits_eq_full_iff (h : patterns.length ≤ maxArity) :
    (ofPatterns patterns out number).fits operands = .full ↔
      Pattern.acceptTop patterns operands.toList = true := by
  rw [fits_ofPatterns h]
  split
  · next hshort =>
    rw [Pattern.acceptTop, decide_eq_false (by rw [Stack.length_toList]; omega)]
    simp
  · split <;> simp_all

lemma fits_eq_short_iff (h : patterns.length ≤ maxArity) :
    (ofPatterns patterns out number).fits operands = .short ↔ operands.count < patterns.length := by
  rw [fits_ofPatterns h]
  split
  · simp_all
  · split <;> simp_all

end Signature

namespace QuickCheck

@[simp] lemma ofCode_code (check : QuickCheck) : ofCode check.code = check := by
  cases check <;> rfl

/-- **A quick check decides what it stands for.** -/
lemma passes_iff_acceptTop {patterns : List Pattern} (h : ofPatterns patterns ≠ none)
    (operands : Stack) :
    (ofPatterns patterns).passes operands = true ↔
      Pattern.acceptTop patterns operands.toList = true := by
  have hitems : operands.toList = operands.toList.reverse.reverse := (List.reverse_reverse _).symm
  rw [hitems]
  generalize hr : operands.toList.reverse = items
  have htop (i : Nat) : operands.fromTop? i = items[i]? := by rw [Stack.fromTop?_eq_getElem?, hr]
  have hone (p : Pattern) (a : Object) (rest : List Object) :
      Pattern.acceptTop [p] (rest.reverse ++ [a]) = p.accepts a := by
    simp [Pattern.acceptTop_append]
  have htwo (p q : Pattern) (a b : Object) (rest : List Object) :
      Pattern.acceptTop [p, q] (rest.reverse ++ [b, a]) = (p.accepts b && q.accepts a) := by
    simp [Pattern.acceptTop_append]
  have hshort (p q : Pattern) (a : Object) : Pattern.acceptTop [p, q] [a] = false := rfl
  have hnone (p : Pattern) (patterns : List Pattern) :
      Pattern.acceptTop (p :: patterns) [] = false := rfl
  revert h
  unfold ofPatterns
  split <;> intro h
  · cases items <;> simp [passes, htop, hone, hnone, Pattern.accepts]
  · rcases items with _ | ⟨a, _ | ⟨b, rest⟩⟩ <;>
      simp [passes, htop, htwo, hnone, hshort, Pattern.accepts]
  · rcases items with _ | ⟨a, _ | ⟨b, rest⟩⟩ <;>
      simp [passes, htop, htwo, hnone, hshort, Pattern.accepts, and_comm]
  · rcases items with _ | ⟨a, _ | ⟨b, rest⟩⟩ <;>
      simp [passes, htop, htwo, hnone, hshort, Pattern.accepts, and_comm]
  · cases items <;> simp [passes, htop, hone, hnone, Pattern.accepts]
  · exact absurd rfl h

end QuickCheck

namespace Signature

variable {patterns : List Pattern} {out number : Nat} {operands : Stack}

/-- The quick check of a signature never decides against its patterns. -/
lemma passes_iff_fits (h : patterns.length ≤ maxArity)
    (hquick : QuickCheck.ofCode (ofPatterns patterns out number).quick ≠ .none) :
    (QuickCheck.ofCode (ofPatterns patterns out number).quick).passes operands = true ↔
      (ofPatterns patterns out number).fits operands = .full := by
  rw [ofPatterns, QuickCheck.ofCode_code] at hquick
  rw [fits_eq_full_iff h, ofPatterns, QuickCheck.ofCode_code,
    QuickCheck.passes_iff_acceptTop hquick]

/-- **A signature is chosen when its patterns accept the operands.** -/
lemma isChosen_ofPatterns (h : patterns.length ≤ maxArity) :
    (ofPatterns patterns out number).isChosen operands =
      Pattern.acceptTop patterns operands.toList := by
  rw [Bool.eq_iff_iff, isChosen, Bool.or_eq_true, beq_iff_eq, fits_eq_full_iff h]
  refine or_iff_right_of_imp fun hpasses => ?_
  rw [ofPatterns, QuickCheck.ofCode_code] at hpasses
  refine (QuickCheck.passes_iff_acceptTop ?_ operands).mp hpasses
  intro hnone
  rw [hnone] at hpasses
  contradiction

end Signature

namespace OperatorTable

variable {m : Memory} {list : Nat}

/-- **Choosing is finding the first**, and an underflow is reported if there is none and one of the
signatures is too long. -/
lemma choose_eq (operands : Stack) {count index : Nat} {signatures : List Signature}
    (hread : signaturesFrom m list count index = .ok signatures) (fault : Fault) :
    choose m list operands count index fault =
      match signatures.find? fun s => s.isChosen operands with
      | some signature => .ok signature
      | none =>
        .error (if signatures.any fun s => s.fits operands == .short then .stackUnderflow
          else fault) := by
  induction count generalizing index signatures fault with
  | zero =>
      rw [signaturesFrom] at hread
      obtain rfl := Except.ok.inj hread
      rfl
  | succ count ih =>
      rw [signaturesFrom] at hread
      split at hread
      · contradiction
      · next signature hsignature =>
        split at hread
        · next rest hrest =>
          obtain rfl := Except.ok.inj hread
          rw [choose, hsignature]
          dsimp only
          rw [ih hrest, List.find?_cons]
          cases hchosen : signature.isChosen operands with
          | true => rfl
          | false =>
              by_cases hshort : signature.fits operands = .short <;> simp [hshort]
        · contradiction

variable {ν : Type} {t : OperatorTable ν} {ls : List (Listing ν)} {opcode : Nat} {l : Listing ν}

/-- What is selected among definitions: the first one that accepts the operands. -/
def choice (definitions : List (Definition ν)) (items : List Object) :
    Except Fault (Definition ν) :=
  match definitions.find? fun d => d.accepts items with
  | some d => .ok d
  | none =>
    .error (if definitions.isEmpty then .unregistered
      else if definitions.any fun d => items.length < d.patterns.length then .stackUnderflow
      else .typeCheck)

/-- The number of the signature stands for the native of the definition. -/
structure Realises (t : OperatorTable ν) (d : Definition ν) (signature : Signature) : Prop where
  arity : d.patterns.length ≤ maxArity
  signature_eq : signature =
    Signature.ofPatterns d.patterns d.outArity.toNat signature.native
  native : t.natives[signature.native]? = some d.native

lemma Lists.realises {m : Memory} (h : Lists t m ls) (hl : l ∈ ls) {r : Registration ν}
    (hr : r ∈ l.registrations) : Realises t r.toDefinition r.signature := by
  obtain ⟨hlength, hnative⟩ := h.native l hl r hr
  exact ⟨hlength, rfl, hnative⟩

lemma isChosen_signature {m : Memory} (h : Lists t m ls) (hl : l ∈ ls) (operands : Stack)
    {r : Registration ν} (hr : r ∈ l.registrations) :
    r.signature.isChosen operands = r.accepts operands.toList :=
  Signature.isChosen_ofPatterns (h.native l hl r hr).1

/-- **Selecting a signature is choosing a definition.** -/
lemma Stores.select {m : Memory} (h : Stores t m ls) (hs : m.Sound)
    (hm : m.entityCount ≤ wordBound) (hl : ls[opcode]? = some l) (operands : Stack) :
    (∀ d, choice l.definitions operands.toList = .ok d →
      ∃ signature, Realises t d signature ∧ t.select m operands opcode = .ok signature) ∧
    ∀ fault, choice l.definitions operands.toList = .error fault →
      t.select m operands opcode = .error fault := by
  have hmem := mem_of_getElem? hl
  have hread := h.signatures hs hm hl
  have hentry := h.entry hs hm hl
  rw [OperatorTable.signatures, hentry] at hread
  have hcount : l.entry.count = l.definitions.length := by
    rw [Listing.definitions, List.length_map, Listing.entry]
  have hfind : (l.signatures.find? fun s => s.isChosen operands) =
      (l.registrations.find? fun r => r.accepts operands.toList).map Registration.signature := by
    rw [Listing.signatures, List.find?_map]
    congr 1
    exact List.find?_congr fun r hr => isChosen_signature h.toLists hmem operands hr
  have hfind' : (l.definitions.find? fun d => d.accepts operands.toList) =
      (l.registrations.find? fun r => r.accepts operands.toList).map Registration.toDefinition := by
    rw [Listing.definitions, List.find?_map]
    rfl
  have hshort : (l.signatures.any fun s => s.fits operands == .short) =
      l.definitions.any fun d => decide (operands.toList.length < d.patterns.length) := by
    rw [Listing.signatures, Listing.definitions, List.any_map, List.any_map, Bool.eq_iff_iff,
      List.any_eq_true, List.any_eq_true]
    refine exists_congr fun r => and_congr_right fun hr => ?_
    have hlength := (h.native l hmem r hr).1
    simpa [Registration.signature] using Signature.fits_eq_short_iff hlength
  rw [OperatorTable.select, hentry, choice, hfind']
  dsimp only
  rw [choose_eq operands hread, hfind, hcount, hshort]
  cases hfirst : l.registrations.find? fun r => r.accepts operands.toList with
  | some r =>
      have hr := List.mem_of_find?_eq_some hfirst
      have hne : l.definitions.length ≠ 0 := by
        rw [Listing.definitions, List.length_map]
        exact Nat.ne_of_gt (List.length_pos_of_mem hr)
      rw [if_neg hne]
      refine ⟨fun d hd => ?_, fun fault hfault => ?_⟩
      · obtain rfl := Except.ok.inj hd
        exact ⟨_, h.realises hmem hr, rfl⟩
      · contradiction
  | none =>
      refine ⟨fun d hd => ?_, fun fault hfault => ?_⟩
      · contradiction
      · obtain rfl := Except.error.inj hfault
        by_cases hempty : l.definitions = [] <;> simp [hempty]

end OperatorTable

end PostScriptCore
