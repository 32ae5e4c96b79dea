import GuixP2p.Dht
import GuixP2p.NarHash.Grammar

/-!
# GuixP2p.Dht.LookupKey

**Which hashes are looked up under the key they are announced under.** The lookup knows hexadecimal
only. A hash in base 32 is looked up under the bytes of its text, and there is no such hash whose text
begins with its own digest (`rawBytes_ne_digest`): nobody who has the NAR is ever found.
-/

namespace GuixP2p

open GuixP2p.Lib
open GuixP2p.Lib.Digits

/-! ### Accepted texts -/

/-- A SHA-256 digest in hexadecimal. -/
def HexText (t : Text) : Prop := t.length = 64 ∧ ∀ c ∈ t, (Hex.digitValue c).isSome

instance (t : Text) : Decidable (HexText t) := inferInstanceAs (Decidable (_ ∧ _))

/-- **What the decoder accepts**: a digest in hexadecimal, and 52 digits of base 32. -/
theorem sha256Bytes_accepts {narHash : Text} {d : Digest} (h : sha256Bytes narHash = .ok (some d)) :
    (HexText (hashText narHash) ∧ SpellsHex (hashText narHash) d) ∨
      ∃ vs : List Nat, (∀ v ∈ vs, v < 32) ∧ vs.length = 52 ∧ hashText narHash = nixText vs ∧
        value d.toList = Nat.ofDigits 32 vs % 256 ^ 32 := by
  by_cases hhex : HexText (hashText narHash)
  · obtain ⟨d', hspells, hresult⟩ := sha256Bytes_of_digits hhex.1 hhex.2
    rw [h] at hresult
    obtain rfl := Option.some.inj (Except.ok.inj hresult)
    exact Or.inl ⟨hhex, hspells⟩
  · right
    have hresult := sha256Bytes_of_not_digits hhex
    rw [h] at hresult
    by_cases hdigits : ∃ vs, (∀ v ∈ vs, v < 32) ∧ hashText narHash = nixText vs
    · obtain ⟨vs, hvs, htext⟩ := hdigits
      rw [htext] at hresult
      have hshort : ¬ Short vs.length := by
        intro hshort
        rw [decodeNixBase32_short hvs hshort] at hresult
        cases hresult
      obtain ⟨out, hdecode, hout, -⟩ := decodeNixBase32_nixText hvs hshort
      rw [hdecode] at hresult
      have hdigest : toDigest out = some d := (Except.ok.inj hresult).symm
      have hsize : out.length = 32 := by
        unfold toDigest at hdigest
        split at hdigest
        next hsize => exact hsize
        next => cases hdigest
      have hlen : vs.length = 52 := by
        have hbytes := hout.symm.trans hsize
        unfold Short at hshort
        omega
      obtain ⟨d', hvalue, hresult'⟩ := sha256Bytes_of_nixText hvs hlen htext
      rw [h] at hresult'
      obtain rfl := Option.some.inj (Except.ok.inj hresult')
      exact ⟨vs, hvs, hlen, htext, hvalue⟩
    · rw [decodeNixBase32_other hdigits] at hresult
      cases hresult

theorem not_hexText_nixText {vs : List Nat} (hlen : vs.length = 52) : ¬ HexText (nixText vs) := by
  intro h'
  obtain ⟨h, -⟩ := h'
  rw [length_nixText, hlen] at h
  cases h

/-- The text is what stands behind the prefix, if there is one. -/
theorem eq_hashText_or (narHash : Text) :
    narHash = hashText narHash ∨ narHash = "sha256:".toList ++ hashText narHash := by
  unfold hashText
  cases hprefix : narHash.dropPrefix? "sha256:".toList with
  | none => exact Or.inl rfl
  | some rest =>
      obtain ⟨p, hp, heq⟩ := List.dropPrefix?_eq_some_iff.mp hprefix
      rw [Option.getD_some, hp, eq_of_beq heq]
      exact Or.inr rfl

/-! ### The key of a lookup -/

theorem isCharBoundary_of_ascii {t : Text} (h : ∀ c ∈ t, c.toNat < 128) {n : Nat} (hn : n ≤ t.length) :
    isCharBoundary t n = true := by
  refine List.any_eq_true.mpr ⟨n, List.mem_range.mpr (Nat.lt_succ_of_le hn), ?_⟩
  rw [Text.length_utf8_of_ascii fun c hc => h c (List.mem_of_mem_take hc), List.length_take, Nat.min_eq_left hn]
  exact beq_self_eq_true n

@[simp] theorem getElem_paddedBytes (bytes : Bytes) {i : Nat} (hi : i < 32) :
    (paddedBytes bytes)[i] = bytes.getD i 0 := Vector.getElem_ofFn hi

theorem paddedBytes_toList (d : Digest) : paddedBytes d.toList = d := by
  refine Vector.ext fun i hi => ?_
  rw [getElem_paddedBytes, List.getD_eq_getElem?_getD, List.getElem?_eq_getElem (by rwa [Vector.length_toList]),
    Option.getD_some, Vector.getElem_toList]

/-- A digest in hexadecimal is looked up under the digest. -/
theorem extractHashBytes_of_spellsHex {s : Text} {d : Digest} (h : SpellsHex (hashText s) d) :
    extractHashBytes s = .ok d := by
  have hdecode := Hex.decode_eq_some_iff.mpr h
  unfold hashText at hdecode
  simp only [extractHashBytes, hdecode]
  rw [if_pos (by rw [Vector.length_toList]), paddedBytes_toList]

/-- A digest in base 32 is looked up under the beginning of its text. -/
theorem extractHashBytes_of_nixText {s : Text} {vs : List Nat} (hvs : ∀ v ∈ vs, v < 32) (hlen : vs.length = 52)
    (htext : hashText s = nixText vs) : extractHashBytes s = .ok (paddedBytes (vs.map nixByte).reverse) := by
  have hutf8 := utf8_nixText hvs
  have hascii : ∀ c ∈ s, c.toNat < 128 := by
    have hall : ∀ t : Text, t.all (fun c => decide (c.toNat < 128)) = true → ∀ c ∈ t, c.toNat < 128 :=
      fun t ht c hc => of_decide_eq_true (List.all_eq_true.mp ht c hc)
    have hdigits : ∀ c ∈ nixText vs, c.toNat < 128 := fun c hc =>
      hall nixDigits (by decide) c (mem_nixDigits_of_mem_nixText hvs hc)
    rcases eq_hashText_or s with heq | heq
    · rw [heq, htext]
      exact hdigits
    · rw [heq, htext, List.forall_mem_append]
      exact ⟨hall "sha256:".toList (by decide), hdigits⟩
  have hlong : 16 ≤ s.length := by
    have hnix : (nixText vs).length = 52 := by rw [length_nixText, hlen]
    rcases eq_hashText_or s with heq | heq <;> rw [heq, htext] <;> simp [hnix]
  have hraw : rawHashBytes s (nixText vs) = .ok (paddedBytes (vs.map nixByte).reverse) := by
    simp only [rawHashBytes]
    have hmin : min (Text.utf8 (nixText vs)).length 16 = 16 := by rw [hutf8]; simp [hlen]
    rw [hmin, if_pos (isCharBoundary_of_ascii hascii hlong), hutf8]
  -- 52 digits are at most 26 bytes
  unfold hashText at htext
  simp only [extractHashBytes, htext]
  split
  next bytes hdecode =>
    have hbytes := congrArg List.length (Hex.decode_eq_some_iff.mp hdecode)
    rw [List.length_map, List.length_map, length_nixText, hlen, Hex.length_digits] at hbytes
    rw [if_neg (by omega), hraw]
  next => exact hraw

/-- **The beginning of a text in base 32 is never its digest.** Bytes 19 and 20 of the digest have the
quintets 31 and 32 in them, and of the text they are the digits of the quintets 32 and 31. -/
theorem rawBytes_ne_digest {vs : List Nat} (hvs : ∀ v ∈ vs, v < 32) (hlen : vs.length = 52) {d : Digest}
    (hvalue : value d.toList = Nat.ofDigits 32 vs % 256 ^ 32) : paddedBytes (vs.map nixByte).reverse ≠ d := by
  intro h
  obtain rfl := h
  have h31 : vs[31] < 32 := hvs _ (List.getElem_mem _)
  have h32 : vs[32] < 32 := hvs _ (List.getElem_mem _)
  have hdigit : ∀ k (hk : k < 32), (vs.map nixByte).reverse.getD k 0 = nixByte vs[51 - k] := by
    intro k hk
    have hmem : k < (vs.map nixByte).reverse.length := by simp only [List.length_reverse, List.length_map]; omega
    rw [List.getD_eq_getElem?_getD, List.getElem?_eq_getElem hmem, Option.getD_some, List.getElem_reverse,
      List.getElem_map]
    simp only [List.length_map, hlen]
  have hbyte : ∀ k (hk : k < 32), Nat.ofDigits 32 vs % 256 ^ 32 / 256 ^ k % 256 = (nixByte vs[51 - k]).toNat := by
    intro k hk
    rw [← hvalue, value_div_mod (by rwa [Vector.length_toList]), Vector.getElem_toList, getElem_paddedBytes _ hk,
      hdigit k hk]
  have hlow : (nixByte vs[32]).toNat / 8 = vs[31] := by
    rw [← hbyte 19 (by decide), ← ofDigits_div_mod hvs]
    omega
  have hhigh : (nixByte vs[31]).toNat % 32 = vs[32] := by
    rw [← hbyte 20 (by decide), ← ofDigits_div_mod hvs]
    omega
  have hnone : ∀ w : Fin 32, (nixByte ((nixByte w).toNat / 8)).toNat % 32 ≠ w := by decide +kernel
  refine hnone ⟨vs[32], h32⟩ ?_
  show (nixByte ((nixByte vs[32]).toNat / 8)).toNat % 32 = vs[32]
  rw [hlow, hhigh]

/-- **Spec of the key**: of the texts that are accepted, the ones in hexadecimal are looked up under
their digest, and no others. -/
theorem extractHashBytes_eq_iff {s : Text} {d : Digest} (h : sha256Bytes s = .ok (some d)) :
    extractHashBytes s = .ok d ↔ HexText (hashText s) := by
  rcases sha256Bytes_accepts h with ⟨hhex, hspells⟩ | ⟨vs, hvs, hlen, htext, hvalue⟩
  · exact iff_of_true (extractHashBytes_of_spellsHex hspells) hhex
  · rw [htext, extractHashBytes_of_nixText hvs hlen htext]
    refine iff_of_false (fun heq => ?_) (not_hexText_nixText hlen)
    exact rawBytes_ne_digest hvs hlen hvalue (Except.ok.inj heq)

end GuixP2p
