import PostScriptCore.Operator.Signature
import PostScriptCore.Proofs.Stack

/-!
# Signatures in storage

A signature loses nothing in its sixteen bytes, and the pattern codes that a signature is made with
are the ones it is read with.

* `Signature.decode_encode` — reading back the stored form.
* `Signature.pattern?_ofPatterns` — the patterns of a signature are those it was made of.
-/

namespace PostScriptCore

@[simp] lemma Pattern.decode?_encode (p : Pattern) : Pattern.decode? p.encode = some p := by
  cases p with
  | type ty => cases ty <;> rfl
  | _ => rfl

namespace Signature

/-- What a signature has to be like to be stored without loss. -/
structure Storable (s : Signature) : Prop where
  codes : s.codes.length = maxArity
  native : s.native < wordBound

lemma length_encode {s : Signature} (h : s.codes.length = maxArity) :
    s.encode.length = signatureSize := by
  simp [encode, h]

lemma decode_encode {s : Signature} (h : s.Storable) : decode s.encode = s := by
  obtain ⟨codes, inArity, outArity, quick, native⟩ := s
  have hcodes : codes.length = 8 := h.codes
  have hnone : codes.drop 12 = [] := List.drop_eq_nil_of_le (by omega)
  have hword : wordOfBytes ((wordBytes native).take 4) = native := by
    rw [List.take_of_length_le (by simp)]
    exact wordOfBytes_wordBytes h.native
  simp [decode, encode, maxArity, hcodes, hnone, hword, List.drop_append]

variable {patterns : List Pattern} {out number : Nat}

lemma length_codes_ofPatterns (h : patterns.length ≤ maxArity) :
    (ofPatterns patterns out number).codes.length = maxArity := by
  simp [ofPatterns]
  omega

lemma toNat_inArity_ofPatterns (h : patterns.length ≤ maxArity) :
    (ofPatterns patterns out number).inArity.toNat = patterns.length := by
  have hlt : patterns.length < 256 := by simp only [maxArity] at h; omega
  simp [ofPatterns, Nat.mod_eq_of_lt hlt]

/-- **The patterns of a signature are those it was made of.** -/
lemma pattern?_ofPatterns (h : patterns.length ≤ maxArity) (index : Nat) :
    (ofPatterns patterns out number).pattern? index = patterns[index]? := by
  rw [pattern?, toNat_inArity_ofPatterns h]
  split
  · next hlt =>
    have hcode : (ofPatterns patterns out number).codes[index]? = some patterns[index].encode := by
      rw [ofPatterns, List.getElem?_append_left (by simpa using hlt)]
      simp [hlt]
    simp [hcode, hlt]
  · next hge => rw [List.getElem?_eq_none (by omega)]

lemma storable_ofPatterns (h : patterns.length ≤ maxArity) (hnumber : number < wordBound) :
    (ofPatterns patterns out number).Storable where
  codes := length_codes_ofPatterns h
  native := hnumber

end Signature

end PostScriptCore
