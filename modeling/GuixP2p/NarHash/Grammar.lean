import GuixP2p.NarHash.Base32

/-!
# GuixP2p.NarHash.Grammar

**Which texts name which digest.** A digest is written as 64 hexadecimal digits or as 52 digits
of Nix's base 32, with or without `sha256:` in front.

Every text that an encoder writes is read back (`sha256Bytes_encoded`). The decoder accepts more
than that, and it can panic: `sha256Bytes_exact` says for which texts it keeps to the grammar.
-/

namespace GuixP2p

open GuixP2p.Lib
open GuixP2p.Lib.Digits

/-! ### The encodings -/

/-- The text without `sha256:`. -/
def hashText (narHash : Text) : Text := (narHash.dropPrefix? "sha256:".toList).getD narHash

/-- The base-32 text of a digest: the `k`-th character from the right has the bits `5 k` to
`5 k + 4` of the digest, read as a little-endian number. -/
def nixBase32 (d : Digest) : Text := nixText (digitsOf 32 52 (value d.toList))

/-- The hexadecimal digits of the text, of either case, are those of the digest. -/
def SpellsHex (t : Text) (d : Digest) : Prop :=
  t.map Hex.digitValue = (Hex.digits d.toList).map some

def Spells (t : Text) (d : Digest) : Prop := SpellsHex t d ∨ t = nixBase32 d

theorem digit_of_mem_nixBase32 {d : Digest} {v : Nat} (h : v ∈ digitsOf 32 52 (value d.toList)) : v < 32 :=
  lt_of_mem_digitsOf (by decide) h

theorem value_digest_lt (d : Digest) : value d.toList < 256 ^ 32 := by
  have hlt := value_lt d.toList
  rwa [Vector.length_toList] at hlt

/-- The digits of a base-32 text can be told from it. -/
theorem nixText_injective {vs ws : List Nat} (hvs : ∀ v ∈ vs, v < 32) (hws : ∀ v ∈ ws, v < 32)
    (h : nixText vs = nixText ws) : vs = ws := by
  have hbytes := congrArg (fun t => (Text.utf8 t).reverse) h
  simp only [utf8_nixText hvs, utf8_nixText hws, List.reverse_reverse] at hbytes
  have hidx := congrArg (List.map nixAlphabet.idxOf?) hbytes
  have hback : ∀ us : List Nat, (∀ v ∈ us, v < 32) →
      (us.map nixByte).map nixAlphabet.idxOf? = us.map some := by
    intro us hus
    rw [List.map_map]
    exact List.map_congr_left fun v hv => idxOf?_nixByte (hus v hv)
  rw [hback vs hvs, hback ws hws] at hidx
  exact List.map_injective_iff.mpr (Option.some_injective Nat) hidx

/-- **52 digits are the text of a digest** when they are its number. -/
theorem nixText_eq_nixBase32_iff {vs : List Nat} (hvs : ∀ v ∈ vs, v < 32) (hlen : vs.length = 52)
    {d : Digest} : nixText vs = nixBase32 d ↔ Nat.ofDigits 32 vs = value d.toList := by
  have hfits : value d.toList < 32 ^ 52 := Nat.lt_of_lt_of_le (value_digest_lt d) (by decide)
  constructor
  · intro h
    rw [nixText_injective hvs (fun v hv => digit_of_mem_nixBase32 hv) h, ofDigits_digitsOf,
      Nat.mod_eq_of_lt hfits]
  · intro h
    rw [nixBase32, ← h, ← hlen, digitsOf_ofDigits hvs]

/-! ### What the decoder does -/

theorem length_utf8_of_digits {t : Text} (h : ∀ c ∈ t, (Hex.digitValue c).isSome) :
    (Text.utf8 t).length = t.length :=
  Text.length_utf8_of_ascii fun c hc => Hex.toNat_lt_of_digit (h c hc)

theorem digits_of_spellsHex {t : Text} {d : Digest} (h : SpellsHex t d) :
    t.length = 64 ∧ ∀ c ∈ t, (Hex.digitValue c).isSome := by
  constructor
  · have hlen := congrArg List.length h
    rw [List.length_map, List.length_map, Hex.length_digits, Vector.length_toList] at hlen
    exact hlen
  · intro c hc
    have hmem : Hex.digitValue c ∈ t.map Hex.digitValue := List.mem_map_of_mem hc
    rw [h] at hmem
    obtain ⟨n, -, hn⟩ := List.mem_map.mp hmem
    rw [← hn]
    rfl

/-- 64 hexadecimal digits are decoded. -/
theorem sha256Bytes_of_digits {narHash : Text} (hlen : (hashText narHash).length = 64)
    (hdigits : ∀ c ∈ hashText narHash, (Hex.digitValue c).isSome) :
    ∃ d, SpellsHex (hashText narHash) d ∧ sha256Bytes narHash = .ok (some d) := by
  obtain ⟨bs, hdecode, hbs⟩ := Hex.decode_of_digits hdigits (n := 32) hlen
  have hsize : bs.toArray.size = 32 := hbs
  have hto : toDigest bs = some ⟨bs.toArray, hsize⟩ := dif_pos hsize
  refine ⟨⟨bs.toArray, hsize⟩, Hex.decode_eq_some_iff.mp hdecode, ?_⟩
  have hcond : (Text.utf8 (hashText narHash)).length = 64 ∧
      (hashText narHash).all (fun c => (Hex.digitValue c).isSome) = true :=
    ⟨(length_utf8_of_digits hdigits).trans hlen, List.all_eq_true.mpr hdigits⟩
  unfold hashText at hcond hdecode
  simp only [sha256Bytes, if_pos hcond, hdecode, Option.bind_some, hto]

/-- Every other text is taken for base 32. -/
theorem sha256Bytes_of_not_digits {narHash : Text}
    (h : ¬ ((hashText narHash).length = 64 ∧ ∀ c ∈ hashText narHash, (Hex.digitValue c).isSome)) :
    sha256Bytes narHash =
      match decodeNixBase32 (hashText narHash) with
      | .error p => .error p
      | .ok bytes => .ok (bytes.bind toDigest) := by
  have hcond : ¬ ((Text.utf8 (hashText narHash)).length = 64 ∧
      (hashText narHash).all (fun c => (Hex.digitValue c).isSome) = true) := by
    intro hc
    have hdigits := List.all_eq_true.mp hc.2
    exact h ⟨(length_utf8_of_digits hdigits).symm.trans hc.1, hdigits⟩
  exact if_neg hcond

theorem sha256Bytes_of_spellsHex {narHash : Text} {d : Digest} (h : SpellsHex (hashText narHash) d) :
    sha256Bytes narHash = .ok (some d) := by
  obtain ⟨hlen, hdigits⟩ := digits_of_spellsHex h
  obtain ⟨d', hd', hresult⟩ := sha256Bytes_of_digits hlen hdigits
  have hsame : d.toList = d'.toList := by
    have hdecode := Hex.decode_eq_some_iff.mpr h
    rw [Hex.decode_eq_some_iff.mpr hd'] at hdecode
    exact (Option.some.inj hdecode).symm
  rw [hresult, Vector.toList_inj.mp hsame]

/-- **52 digits of base 32** are a digest: their number without the bits from 256 on. -/
theorem sha256Bytes_of_nixText {narHash : Text} {vs : List Nat} (hvs : ∀ v ∈ vs, v < 32)
    (hlen : vs.length = 52) (htext : hashText narHash = nixText vs) :
    ∃ d, value d.toList = Nat.ofDigits 32 vs % 256 ^ 32 ∧ sha256Bytes narHash = .ok (some d) := by
  obtain ⟨out, hdecode, hout, hvalue⟩ := decodeNixBase32_nixText hvs (by rw [hlen]; decide)
  rw [hlen] at hout hvalue
  have hsize : out.toArray.size = 32 := hout
  have hto : toDigest out = some ⟨out.toArray, hsize⟩ := dif_pos hsize
  refine ⟨⟨out.toArray, hsize⟩, hvalue, ?_⟩
  rw [sha256Bytes_of_not_digits (by rw [htext, length_nixText, hlen]; simp), htext, hdecode]
  simp only [Option.bind_some, hto]

theorem sha256Bytes_of_nixBase32 {narHash : Text} {d : Digest} (h : hashText narHash = nixBase32 d) :
    sha256Bytes narHash = .ok (some d) := by
  have hvs : ∀ v ∈ digitsOf 32 52 (value d.toList), v < 32 := fun v hv => digit_of_mem_nixBase32 hv
  obtain ⟨d', hd', hresult⟩ := sha256Bytes_of_nixText hvs (length_digitsOf 32 52 _) h
  have hsame := (nixText_eq_nixBase32_iff hvs (length_digitsOf 32 52 _)).mp (rfl : _ = nixBase32 d)
  rw [hsame, Nat.mod_eq_of_lt (value_digest_lt d)] at hd'
  have hlist := value_injective (by rw [Vector.length_toList, Vector.length_toList]) hd'
  rw [hresult, Vector.toList_inj.mp hlist]

/-! ### The encoders -/

theorem hashText_of_prefixed (t : Text) : hashText ("sha256:".toList ++ t) = t := by
  rw [hashText, Text.dropPrefix?_append_self]
  rfl

theorem hashText_of_no_colon {t : Text} (h : ':' ∉ t) : hashText t = t := by
  have hprefix : ¬ "sha256:".toList <+: t := fun hp => h (hp.subset (by decide))
  rw [hashText, Text.dropPrefix?_eq_none hprefix]
  rfl

theorem spellsHex_encode (d : Digest) : SpellsHex (Hex.encode d.toList) d := by
  rw [SpellsHex, Hex.encode_eq_map, List.map_map]
  exact List.map_congr_left fun n hn => Hex.digitValue_digit (Hex.lt_of_mem_digits hn)

theorem spellsHex_upper (d : Digest) : SpellsHex ((Hex.encode d.toList).map Char.toUpper) d := by
  rw [SpellsHex, Hex.encode_eq_map, List.map_map, List.map_map]
  exact List.map_congr_left fun n hn => Hex.digitValue_toUpper_digit (Hex.lt_of_mem_digits hn)

theorem colon_not_mem_of_spellsHex {t : Text} {d : Digest} (h : SpellsHex t d) : ':' ∉ t := by
  intro hmem
  exact absurd ((digits_of_spellsHex h).2 ':' hmem) (by decide)

theorem mem_nixDigits {v : Nat} (h : v < 32) : nixDigit v ∈ nixDigits := by
  have hall : ∀ v : Fin 32, nixDigit v ∈ nixDigits := by decide +kernel
  exact hall ⟨v, h⟩

theorem mem_nixDigits_of_mem_nixText {vs : List Nat} (hvs : ∀ v ∈ vs, v < 32) {c : Char}
    (h : c ∈ nixText vs) : c ∈ nixDigits := by
  rw [nixText, List.mem_reverse] at h
  obtain ⟨v, hv, rfl⟩ := List.mem_map.mp h
  exact mem_nixDigits (hvs v hv)

theorem colon_not_mem_nixBase32 (d : Digest) : ':' ∉ nixBase32 d := by
  intro hmem
  exact absurd (mem_nixDigits_of_mem_nixText (fun v hv => digit_of_mem_nixBase32 hv) hmem) (by decide)

/-- **Decoding inverts the encoders**: base 32 and hexadecimal of either case, with the prefix
and without. -/
theorem sha256Bytes_encoded (d : Digest) :
    ∀ t ∈ [nixBase32 d, Hex.encode d.toList, (Hex.encode d.toList).map Char.toUpper],
      sha256Bytes ("sha256:".toList ++ t) = .ok (some d) ∧ sha256Bytes t = .ok (some d) := by
  have hspells : ∀ t, ':' ∉ t → Spells t d →
      sha256Bytes ("sha256:".toList ++ t) = .ok (some d) ∧ sha256Bytes t = .ok (some d) := by
    intro t hcolon hspells
    have hprefixed := hashText_of_prefixed t
    have hplain := hashText_of_no_colon hcolon
    rcases hspells with hhex | rfl
    · exact ⟨sha256Bytes_of_spellsHex (by rwa [hprefixed]), sha256Bytes_of_spellsHex (by rwa [hplain])⟩
    · exact ⟨sha256Bytes_of_nixBase32 hprefixed, sha256Bytes_of_nixBase32 hplain⟩
  intro t ht
  simp only [List.mem_cons, List.not_mem_nil, or_false] at ht
  rcases ht with rfl | rfl | rfl
  · exact hspells _ (colon_not_mem_nixBase32 d) (Or.inr rfl)
  · exact hspells _ (colon_not_mem_of_spellsHex (spellsHex_encode d)) (Or.inl (spellsHex_encode d))
  · exact hspells _ (colon_not_mem_of_spellsHex (spellsHex_upper d)) (Or.inl (spellsHex_upper d))

/-- A digest of equal bytes, in hexadecimal capitals. -/
theorem sha256Bytes_encoded_sample :
    sha256Bytes ((Hex.encode (Vector.replicate 32 (0xAB : UInt8)).toList).map Char.toUpper) =
      .ok (some (Vector.replicate 32 0xAB)) :=
  (sha256Bytes_encoded (Vector.replicate 32 0xAB) _ (by simp)).2

/-! ### The grammar -/

/-- The decoder returns, and it returns a digest exactly when the text spells it. -/
def DecodesExactly (narHash : Text) : Prop :=
  ∃ result, sha256Bytes narHash = .ok result ∧ ∀ d, result = some d ↔ Spells (hashText narHash) d

/-- Base-32 digits that the decoder does not check: so many that its buffer is too short, or
one digest's worth of them with bits from 256 on. -/
structure Unchecked (t : Text) : Prop where
  digits : ∀ c ∈ t, c ∈ nixDigits
  length : Short t.length ∨ t.length = 52 ∧ t.head? ≠ some '0' ∧ t.head? ≠ some '1'

theorem nixText_of_digits {t : Text} (h : ∀ c ∈ t, c ∈ nixDigits) :
    ∃ vs, (∀ v ∈ vs, v < 32) ∧ t = nixText vs := by
  have hdigit : ∀ c ∈ nixDigits, ∃ v < 32, c = nixDigit v := by
    intro c hc
    obtain ⟨v, hv, rfl⟩ := List.mem_map.mp (show c ∈ (List.range 32).map nixDigit by
      rwa [show (List.range 32).map nixDigit = nixDigits by decide +kernel])
    exact ⟨v, List.mem_range.mp hv, rfl⟩
  induction t with
  | nil => exact ⟨[], by simp, rfl⟩
  | cons c t ih =>
      rw [List.forall_mem_cons] at h
      obtain ⟨v, hv, rfl⟩ := hdigit c h.1
      obtain ⟨vs, hvs, rfl⟩ := ih h.2
      refine ⟨vs ++ [v], ?_, by simp [nixText]⟩
      intro w hw
      rcases List.mem_append.mp hw with hw | hw
      · exact hvs w hw
      · rw [List.mem_singleton.mp hw]
        exact hv

/-- The first of 52 digits has one bit of the digest. -/
theorem lt_iff_head {vs : List Nat} (hvs : ∀ v ∈ vs, v < 32) (hlen : vs.length = 52) :
    Nat.ofDigits 32 vs < 256 ^ 32 ↔
      (nixText vs).head? = some '0' ∨ (nixText vs).head? = some '1' := by
  have hne : vs ≠ [] := by
    intro h
    rw [h] at hlen
    cases hlen
  obtain ⟨low, top, rfl⟩ := List.eq_nil_or_concat vs |>.resolve_left hne
  rw [List.concat_eq_append] at hvs hlen ⊢
  have hlow : low.length = 51 := by simpa using hlen
  have hbits : Nat.ofDigits 32 low < 32 ^ 51 := by
    rw [← hlow]
    exact Nat.ofDigits_lt_base_pow_length (by decide) fun v hv => hvs v (List.mem_append_left _ hv)
  have hhead : (nixText (low ++ [top])).head? = some (nixDigit top) := by simp [nixText]
  have htop : ∀ v : Fin 32, (v.val < 2 ↔ nixDigit v = '0' ∨ nixDigit v = '1') := by decide +kernel
  rw [hhead, Option.some.injEq, Option.some.injEq,
    ← htop ⟨top, hvs top List.mem_concat_self⟩, Nat.ofDigits_append, hlow, Nat.ofDigits_singleton]
  have hpow : (256 : Nat) ^ 32 = 2 * 32 ^ 51 := by decide
  rw [hpow]
  constructor
  · intro h
    show top < 2
    by_contra hge
    have hmul : 32 ^ 51 * 2 ≤ 32 ^ 51 * top := Nat.mul_le_mul_left _ (Nat.le_of_not_lt hge)
    omega
  · intro h
    have hmul : 32 ^ 51 * top ≤ 32 ^ 51 * 1 := Nat.mul_le_mul_left _ (Nat.le_of_lt_succ h)
    omega

theorem sha256Bytes_of_spells {narHash : Text} {d : Digest} (h : Spells (hashText narHash) d) :
    sha256Bytes narHash = .ok (some d) := by
  rcases h with hhex | hbase32
  · exact sha256Bytes_of_spellsHex hhex
  · exact sha256Bytes_of_nixBase32 hbase32

/-- What spells a digest is always accepted, so a result is exact when it spells its digest. -/
theorem decodesExactly_iff {narHash : Text} {result : Option Digest} (h : sha256Bytes narHash = .ok result) :
    DecodesExactly narHash ↔ ∀ d, result = some d → Spells (hashText narHash) d := by
  constructor
  · rintro ⟨result', hresult', hexact⟩ d hd
    rw [h] at hresult'
    obtain rfl := Except.ok.inj hresult'
    exact (hexact d).mp hd
  · intro hspells
    refine ⟨result, h, fun d => ⟨hspells d, fun hd => ?_⟩⟩
    have hresult := sha256Bytes_of_spells hd
    rw [h] at hresult
    exact Except.ok.inj hresult

/-- **52 digits** are decoded exactly when none of their bits is lost. -/
theorem decodesExactly_of_nixText {narHash : Text} {vs : List Nat} (hvs : ∀ v ∈ vs, v < 32)
    (hlen : vs.length = 52) (htext : hashText narHash = nixText vs) :
    DecodesExactly narHash ↔ Nat.ofDigits 32 vs < 256 ^ 32 := by
  obtain ⟨d, hd, hresult⟩ := sha256Bytes_of_nixText hvs hlen htext
  rw [decodesExactly_iff hresult, htext]
  constructor
  · intro h
    rcases h d rfl with hhex | hbase32
    · have hlen64 := (digits_of_spellsHex hhex).1
      rw [length_nixText, hlen] at hlen64
      cases hlen64
    · rw [(nixText_eq_nixBase32_iff hvs hlen).mp hbase32]
      exact value_digest_lt d
  · intro h d' hd'
    obtain rfl := Option.some.inj hd'
    rw [Nat.mod_eq_of_lt h] at hd
    exact Or.inr ((nixText_eq_nixBase32_iff hvs hlen).mpr hd.symm)

/-- **The grammar is kept exactly where it is checked.** For every text: the decoder returns, and
returns the digest that the text spells or none, if and only if the text is not one of the base-32
texts it does not check. -/
theorem sha256Bytes_exact (narHash : Text) : DecodesExactly narHash ↔ ¬ Unchecked (hashText narHash) := by
  by_cases hhex : (hashText narHash).length = 64 ∧ ∀ c ∈ hashText narHash, (Hex.digitValue c).isSome
  · obtain ⟨d, hspells, hresult⟩ := sha256Bytes_of_digits hhex.1 hhex.2
    have hchecked : ¬ Unchecked (hashText narHash) := by
      intro h
      have hlen := h.length
      rw [hhex.1] at hlen
      exact absurd hlen (by simp [Short])
    refine iff_of_true ((decodesExactly_iff hresult).mpr fun d' hd' => ?_) hchecked
    obtain rfl := Option.some.inj hd'
    exact Or.inl hspells
  · have hresult := sha256Bytes_of_not_digits hhex
    by_cases hdigits : ∀ c ∈ hashText narHash, c ∈ nixDigits
    · obtain ⟨vs, hvs, htext⟩ := nixText_of_digits hdigits
      have hlen : (hashText narHash).length = vs.length := by rw [htext, length_nixText]
      by_cases hshort : Short vs.length
      · -- the panic
        rw [htext, decodeNixBase32_short hvs hshort] at hresult
        refine iff_of_false ?_ fun hchecked => hchecked ⟨hdigits, Or.inl (by rwa [hlen])⟩
        intro h'
        obtain ⟨result, hok, -⟩ := h'
        rw [hresult] at hok
        cases hok
      · by_cases h52 : vs.length = 52
        · rw [decodesExactly_of_nixText hvs h52 htext, lt_iff_head hvs h52, ← htext]
          constructor
          · intro hhead h
            rcases h.length with hs | ⟨-, hzero, hone⟩
            · exact hshort (by rwa [hlen] at hs)
            · exact hhead.elim hzero hone
          · intro hchecked
            by_contra hhead
            rw [not_or] at hhead
            exact hchecked ⟨hdigits, Or.inr ⟨hlen.trans h52, hhead⟩⟩
        · -- a buffer that is not 32 bytes long
          obtain ⟨out, hdecode, hout, -⟩ := decodeNixBase32_nixText hvs hshort
          have hnone : toDigest out = none := by
            refine dif_neg ?_
            rw [List.size_toArray, hout]
            omega
          rw [htext, hdecode] at hresult
          simp only [Option.bind_some, hnone] at hresult
          refine iff_of_true ((decodesExactly_iff hresult).mpr (by simp)) ?_
          intro h'
          obtain ⟨-, hs | ⟨hl, -⟩⟩ := h'
          · exact hshort (by rwa [hlen] at hs)
          · exact h52 (hlen.symm.trans hl)
    · have hother : ¬ ∃ vs, (∀ v ∈ vs, v < 32) ∧ hashText narHash = nixText vs := by
        intro h'
        obtain ⟨vs, hvs, htext⟩ := h'
        refine hdigits fun c hc => ?_
        rw [htext] at hc
        exact mem_nixDigits_of_mem_nixText hvs hc
      rw [decodeNixBase32_other hother] at hresult
      exact iff_of_true ((decodesExactly_iff hresult).mpr (by simp)) fun h => hdigits h.digits

/-- One digit panics, and two texts of 52 digits name the same digest. -/
theorem unchecked_hashes :
    ¬ DecodesExactly "sha256:0".toList ∧
      ∃ d, sha256Bytes ("sha256:".toList ++ List.replicate 52 '0') = .ok (some d) ∧
        sha256Bytes ("sha256:".toList ++ '2' :: List.replicate 51 '0') = .ok (some d) := by
  constructor
  · intro h
    obtain ⟨result, hok, -⟩ := h
    have hpanic : sha256Bytes "sha256:0".toList = .error .indexOutOfBounds := by decide +kernel
    rw [hpanic] at hok
    cases hok
  · exact ⟨Vector.replicate 32 0, by decide +kernel, by decide +kernel⟩

end GuixP2p
