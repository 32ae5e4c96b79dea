import GuixP2p.Lib.Digits
import GuixP2p.Lib.Lines
import GuixP2p.NarHash

/-!
# GuixP2p.NarHash.Base32

**What the base-32 decoder computes.** A text of base-32 digits is a number, and the decoder
writes the bytes of that number, least significant byte first: it keeps the quintets it has read
as a number (`decodeQuintets_digits`), and it drops the bits that do not fit the buffer.

For `n` digits the buffer has `5 n / 8` bytes. The quintet `i` starts in byte `5 i / 8`; for the
lengths in `Short` the last one starts behind the buffer, and the decoder panics.
-/

namespace GuixP2p

open GuixP2p.Lib
open GuixP2p.Lib.Digits

/-! ### Digits -/

/-- The digits of Nix's base 32, as text. -/
def nixDigits : Text := "0123456789abcdfghijklmnpqrsvwxyz".toList

def nixDigit (v : Nat) : Char := nixDigits.getD v '0'

/-- The byte of a digit. -/
def nixByte (v : Nat) : UInt8 := nixAlphabet.getD v 0

/-- The text of some digits, least significant first: the `k`-th is the `k`-th character from
the right. -/
def nixText (vs : List Nat) : Text := (vs.map nixDigit).reverse

@[simp] theorem length_nixText (vs : List Nat) : (nixText vs).length = vs.length := by simp [nixText]

theorem idxOf?_nixByte {v : Nat} (h : v < 32) : nixAlphabet.idxOf? (nixByte v) = some v := by
  have hall : ∀ v : Fin 32, nixAlphabet.idxOf? (nixByte v) = some v.val := by decide +kernel
  exact hall ⟨v, h⟩

theorem utf8EncodeChar_nixDigit {v : Nat} (h : v < 32) :
    String.utf8EncodeChar (nixDigit v) = [nixByte v] := by
  have hall : ∀ v : Fin 32, String.utf8EncodeChar (nixDigit v) = [nixByte v] := by decide +kernel
  exact hall ⟨v, h⟩

theorem length_nixAlphabet : nixAlphabet.length = 32 := by decide +kernel

theorem nixByte_of_idxOf? {chr : UInt8} {v : Nat} (h : nixAlphabet.idxOf? chr = some v) :
    v < 32 ∧ nixByte v = chr := by
  rw [List.idxOf?, List.findIdx?_eq_some_iff_getElem] at h
  obtain ⟨hlt, hchr, -⟩ := h
  rw [length_nixAlphabet] at hlt
  refine ⟨hlt, ?_⟩
  rw [nixByte, List.getD_eq_getElem?_getD, List.getElem?_eq_getElem (by rwa [length_nixAlphabet])]
  exact eq_of_beq hchr

theorem utf8_nixText {vs : List Nat} (h : ∀ v ∈ vs, v < 32) :
    Text.utf8 (nixText vs) = (vs.map nixByte).reverse := by
  induction vs with
  | nil => rfl
  | cons v vs ih =>
      rw [List.forall_mem_cons] at h
      have hcons : nixText (v :: vs) = nixText vs ++ [nixDigit v] := by simp [nixText]
      have hlast : Text.utf8 [nixDigit v] = [nixByte v] := by
        simp [Text.utf8, utf8EncodeChar_nixDigit h.1]
      rw [hcons, Text.utf8_append, ih h.2, hlast, List.map_cons, List.reverse_cons]

/-- A byte string is made of digits, or there is a first byte that is none. -/
theorem digits_or_other (bytes : Bytes) :
    (∃ vs : List Nat, (∀ v ∈ vs, v < 32) ∧ bytes = vs.map nixByte) ∨
      ∃ (vs : List Nat) (other : UInt8) (rest : Bytes), (∀ v ∈ vs, v < 32) ∧
        nixAlphabet.idxOf? other = none ∧ bytes = vs.map nixByte ++ other :: rest := by
  induction bytes with
  | nil => exact Or.inl ⟨[], by simp, rfl⟩
  | cons chr bytes ih =>
      cases hidx : nixAlphabet.idxOf? chr with
      | none => exact Or.inr ⟨[], chr, bytes, by simp, hidx, rfl⟩
      | some v =>
          obtain ⟨hv, rfl⟩ := nixByte_of_idxOf? hidx
          rcases ih with ⟨vs, hvs, rfl⟩ | ⟨vs, other, rest, hvs, hother, rfl⟩
          · exact Or.inl ⟨v :: vs, List.forall_mem_cons.mpr ⟨hv, hvs⟩, rfl⟩
          · exact Or.inr ⟨v :: vs, other, rest, List.forall_mem_cons.mpr ⟨hv, hvs⟩, hother, rfl⟩

/-! ### One quintet -/

/-- What a quintet puts into the byte it starts in, and into the next one. -/
def quintetBytes (r : Nat) (value : UInt8) : UInt8 × UInt8 :=
  match r with
  | 0 => (value, 0)
  | 1 => ((value &&& 0x07) <<< 5, value >>> 3)
  | 2 => (value <<< 2, 0)
  | 3 => ((value &&& 0x01) <<< 7, value >>> 1)
  | 4 => ((value &&& 0x0f) <<< 4, value >>> 4)
  | 5 => (value <<< 1, 0)
  | 6 => ((value &&& 0x03) <<< 6, value >>> 2)
  | _ => (value <<< 3, 0)

theorem setByte_zero (out : Bytes) (offset : Nat) : setByte out offset 0 = out := by
  unfold setByte
  split
  next => rfl
  next byte hbyte =>
    obtain ⟨hlt, rfl⟩ := List.getElem?_eq_some_iff.mp hbyte
    simp

theorem splitQuintet_zero (out : Bytes) (offset : Nat) (low : UInt8) :
    splitQuintet out offset low 0 = orByte out offset low := by
  unfold splitQuintet
  cases orByte out offset low with
  | error p => rfl
  | ok out => simp [setByte_zero]

/-- The eight cases are one. -/
theorem setNixBase32Quintet_eq_split (out : Bytes) (i : Nat) (value : UInt8) :
    setNixBase32Quintet out i value =
      splitQuintet out (i * 5 / 8) (quintetBytes (i % 8) (value &&& 0x1f)).1
        (quintetBytes (i % 8) (value &&& 0x1f)).2 := by
  unfold setNixBase32Quintet
  generalize i % 8 = r
  dsimp only
  split <;> simp only [quintetBytes, splitQuintet_zero]

/-- A quintet is shifted to its place. -/
theorem quintetBytes_eq {r v : Nat} (hr : r < 8) (hv : v < 32) :
    quintetBytes r (UInt8.ofNat v &&& 0x1f) =
      (UInt8.ofNat (v * 2 ^ (r * 5 % 8)), UInt8.ofNat (v * 2 ^ (r * 5 % 8) / 256)) := by
  have hall : ∀ r : Fin 8, ∀ v : Fin 32, quintetBytes r (UInt8.ofNat v &&& 0x1f) =
      (UInt8.ofNat (v * 2 ^ (r.val * 5 % 8)), UInt8.ofNat (v * 2 ^ (r.val * 5 % 8) / 256)) := by
    decide +kernel
  exact hall ⟨r, hr⟩ ⟨v, hv⟩

/-- Bits above the ones that are set are added. -/
theorem toNat_or_shifted {byte : UInt8} {v s : Nat} (hs : s ≤ 8) (hbyte : byte.toNat < 2 ^ s) :
    (byte ||| UInt8.ofNat (v * 2 ^ s)).toNat = byte.toNat + v * 2 ^ s % 256 := by
  have hmod : v * 2 ^ s % 256 = 2 ^ s * (v % 2 ^ (8 - s)) := by
    have h256 : 256 = 2 ^ s * 2 ^ (8 - s) := by
      rw [← Nat.pow_add, Nat.add_sub_cancel' hs]
    rw [h256, Nat.mul_comm v, Nat.mul_mod_mul_left]
  rw [UInt8.toNat_or, UInt8.toNat_ofNat', hmod, Nat.or_comm, ← Nat.two_pow_add_eq_or_of_lt hbyte,
    Nat.add_comm]

theorem orByte_value {out : Bytes} {k v s : Nat} (hk : k < out.length) (hs : s ≤ 8)
    (hroom : out[k].toNat < 2 ^ s) :
    ∃ out', orByte out k (UInt8.ofNat (v * 2 ^ s)) = .ok out' ∧ out'.length = out.length ∧
      (∀ j, j ≠ k → out'[j]? = out[j]?) ∧ value out' = value out + v * 2 ^ s % 256 * 256 ^ k := by
  refine ⟨out.set k (out[k] ||| UInt8.ofNat (v * 2 ^ s)), ?_, List.length_set, fun j hj => ?_, ?_⟩
  · simp only [orByte, List.getElem?_eq_getElem hk]
  · exact List.getElem?_set_ne hj.symm
  · exact value_set hk (toNat_or_shifted hs hroom)

/-- A byte that is not there loses what is written to it. -/
theorem setByte_value {out : Bytes} {k v : Nat} (hv : v < 256) (hroom : ∀ byte, out[k]? = some byte → byte = 0) :
    (setByte out k (UInt8.ofNat v)).length = out.length ∧
      value (setByte out k (UInt8.ofNat v)) = (value out + v * 256 ^ k) % 256 ^ out.length := by
  unfold setByte
  split
  next hnone =>
    have hle : out.length ≤ k := List.getElem?_eq_none_iff.mp hnone
    have hdvd : 256 ^ out.length ∣ v * 256 ^ k := Dvd.dvd.mul_left (Nat.pow_dvd_pow 256 hle) v
    refine ⟨rfl, ?_⟩
    rw [Nat.add_mod, Nat.mod_eq_zero_of_dvd hdvd, Nat.add_zero, Nat.mod_mod, Nat.mod_eq_of_lt (value_lt out)]
  next byte hbyte =>
    have hk : k < out.length := (List.getElem?_eq_some_iff.mp hbyte).1
    have hzero : out[k] = 0 := hroom _ (List.getElem?_eq_getElem hk)
    have hset : value (out.set k (byte ||| UInt8.ofNat v)) = value out + v * 256 ^ k := by
      refine value_set hk ?_
      rw [hroom byte hbyte, hzero, UInt8.zero_or, UInt8.toNat_ofNat', Nat.mod_eq_of_lt hv]
      exact (Nat.zero_add v).symm
    have hlt := value_lt (out.set k (byte ||| UInt8.ofNat v))
    rw [List.length_set, hset] at hlt
    exact ⟨List.length_set, by rw [hset, Nat.mod_eq_of_lt hlt]⟩

/-- **Step lemma.** A quintet is added above the ones that have been read. -/
theorem setNixBase32Quintet_value {out : Bytes} {i v N : Nat} (hv : v < 32) (hN : N < 32 ^ i)
    (hout : value out = N) (hfit : i * 5 / 8 < out.length) :
    ∃ out', setNixBase32Quintet out i (UInt8.ofNat v) = .ok out' ∧ out'.length = out.length ∧
      value out' = (N + v * 32 ^ i) % 256 ^ out.length := by
  -- the quintet starts at bit `s` of byte `k`
  have hsplit := setNixBase32Quintet_eq_split out i (UInt8.ofNat v)
  rw [quintetBytes_eq (Nat.mod_lt i (by decide)) hv] at hsplit
  have hmod : i % 8 * 5 % 8 = i * 5 % 8 := by omega
  have hpow : 32 ^ i = 256 ^ (i * 5 / 8) * 2 ^ (i * 5 % 8) := by
    have h32 : (32 : Nat) = 2 ^ 5 := rfl
    have h256 : (256 : Nat) = 2 ^ 8 := rfl
    rw [h32, h256, ← Nat.pow_mul, ← Nat.pow_mul, ← Nat.pow_add]
    congr 1
    omega
  have hs : i * 5 % 8 < 8 := Nat.mod_lt _ (by decide)
  rw [hmod] at hsplit
  rw [hpow] at hN ⊢
  generalize i * 5 / 8 = k at hfit hN hsplit ⊢
  generalize i * 5 % 8 = s at hN hs hsplit ⊢
  have hshift : (2 : Nat) ^ s ≤ 128 := Nat.pow_le_pow_right (by decide) (Nat.le_of_lt_succ hs)
  have hroom : out[k].toNat < 2 ^ s := by
    rw [← value_div_mod hfit, hout]
    exact Nat.lt_of_le_of_lt (Nat.mod_le _ _) (Nat.div_lt_of_lt_mul hN)
  have hnext : ∀ byte, out[k + 1]? = some byte → byte = 0 := by
    intro byte hbyte
    obtain ⟨hk, rfl⟩ := List.getElem?_eq_some_iff.mp hbyte
    have hlt : N < 256 ^ (k + 1) := by
      refine Nat.lt_of_lt_of_le hN ?_
      rw [Nat.pow_succ]
      exact Nat.mul_le_mul_left _ (Nat.le_trans hshift (by decide))
    have hzero := value_div_mod hk
    rw [hout, Nat.div_eq_of_lt hlt] at hzero
    exact UInt8.toNat_inj.mp hzero.symm
  obtain ⟨low, hlow, hlen, hother, hvalue⟩ := @orByte_value out k v s hfit (Nat.le_of_lt hs) hroom
  have hhigh : v * 2 ^ s / 256 < 256 := by
    have hle : v * 2 ^ s ≤ 31 * 128 := Nat.mul_le_mul (Nat.le_of_lt_succ hv) hshift
    omega
  have hset := @setByte_value low (k + 1) (v * 2 ^ s / 256) hhigh (by rwa [hother (k + 1) (Nat.succ_ne_self k)])
  refine ⟨_, by rw [hsplit, splitQuintet, hlow], hset.1.trans hlen, ?_⟩
  rw [hset.2, hlen, hvalue, hout]
  congr 1
  have hparts := Nat.mod_add_div (v * 2 ^ s) 256
  calc N + v * 2 ^ s % 256 * 256 ^ k + v * 2 ^ s / 256 * 256 ^ (k + 1)
      = N + (v * 2 ^ s % 256 + 256 * (v * 2 ^ s / 256)) * 256 ^ k := by ring
    _ = N + v * (256 ^ k * 2 ^ s) := by rw [hparts]; ring

/-! ### The loop -/

/-- **Run lemma.** The digits that have been read are a number, and the buffer has its bytes. -/
theorem decodeQuintets_digits {vs : List Nat} (hvs : ∀ v ∈ vs, v < 32) {out : Bytes} {i N : Nat}
    (hN : N < 32 ^ i) (hout : value out = N)
    (hfit : ∀ j, i ≤ j → j < i + vs.length → j * 5 / 8 < out.length) :
    ∃ out', decodeQuintets (vs.map nixByte) i out = .ok (some out') ∧ out'.length = out.length ∧
      value out' = (N + Nat.ofDigits 32 vs * 32 ^ i) % 256 ^ out.length := by
  induction vs generalizing out i N with
  | nil =>
      refine ⟨out, rfl, rfl, ?_⟩
      have hlt := value_lt out
      rw [hout] at hlt ⊢
      rw [Nat.ofDigits_nil, Nat.zero_mul, Nat.add_zero, Nat.mod_eq_of_lt hlt]
  | cons v vs ih =>
      rw [List.forall_mem_cons] at hvs
      obtain ⟨next, hset, hlen, hvalue⟩ := setNixBase32Quintet_value hvs.1 hN hout
        (hfit i (Nat.le_refl i) (by rw [List.length_cons]; omega))
      have hlt : (N + v * 32 ^ i) % 256 ^ out.length < 32 ^ (i + 1) := by
        refine Nat.lt_of_le_of_lt (Nat.mod_le _ _) ?_
        have hle : v * 32 ^ i ≤ 31 * 32 ^ i := Nat.mul_le_mul_right _ (Nat.le_of_lt_succ hvs.1)
        rw [Nat.pow_succ]
        omega
      obtain ⟨out', hrest, hlen', hvalue'⟩ := ih hvs.2 hlt hvalue fun j hj hj' => by
        rw [hlen]
        exact hfit j (Nat.le_of_succ_le hj) (by rw [List.length_cons]; omega)
      refine ⟨out', ?_, hlen'.trans hlen, ?_⟩
      · simp only [List.map_cons, decodeQuintets, idxOf?_nixByte hvs.1, hset, hrest]
      · rw [hvalue', hlen, Nat.mod_add_mod, Nat.ofDigits_cons]
        congr 1
        ring

theorem decodeQuintets_append {xs : Bytes} {i : Nat} {out out' : Bytes}
    (h : decodeQuintets xs i out = .ok (some out')) (ys : Bytes) :
    decodeQuintets (xs ++ ys) i out = decodeQuintets ys (i + xs.length) out' := by
  induction xs generalizing i out with
  | nil =>
      cases h
      rfl
  | cons chr xs ih =>
      rw [decodeQuintets] at h
      rw [List.cons_append, decodeQuintets]
      split at h
      next => cases h
      next v hidx =>
        split at h
        next => cases h
        next next hset =>
          rw [ih h, List.length_cons]
          congr 1
          omega

/-- The lengths for which the buffer is too short for the last quintet. -/
def Short (n : Nat) : Prop := n % 8 = 1 ∨ n % 8 = 3 ∨ n % 8 = 6

instance (n : Nat) : Decidable (Short n) := inferInstanceAs (Decidable (_ ∨ _))

/-- Every other quintet starts inside. -/
theorem quintet_fits {n j : Nat} (hj : j < n) (h : j + 2 ≤ n ∨ ¬ Short n) : j * 5 / 8 < n * 5 / 8 := by
  by_cases hlast : j + 2 ≤ n
  · omega
  · have hshort := h.resolve_left hlast
    unfold Short at hshort
    obtain rfl : n = j + 1 := by omega
    have hr : j % 8 < 8 := Nat.mod_lt j (by decide)
    obtain ⟨q, hq⟩ : ∃ q, j = 8 * q + j % 8 := ⟨j / 8, by omega⟩
    generalize j % 8 = r at hr hq
    subst hq
    interval_cases r <;> omega

/-- **A text of digits** is its number, without the bits that do not fit. -/
theorem decodeNixBase32_nixText {vs : List Nat} (hvs : ∀ v ∈ vs, v < 32) (hshort : ¬ Short vs.length) :
    ∃ out, decodeNixBase32 (nixText vs) = .ok (some out) ∧ out.length = vs.length * 5 / 8 ∧
      value out = Nat.ofDigits 32 vs % 256 ^ (vs.length * 5 / 8) := by
  obtain ⟨out, hdecode, hlen, hvalue⟩ := @decodeQuintets_digits vs hvs
    (List.replicate (vs.length * 5 / 8) 0) 0 0 (by decide) (value_replicate_zero _) fun j _ hj => by
      rw [List.length_replicate]
      exact quintet_fits (by omega) (Or.inr hshort)
  rw [List.length_replicate] at hlen hvalue
  refine ⟨out, ?_, hlen, by rw [hvalue]; simp⟩
  simp only [decodeNixBase32, utf8_nixText hvs, List.reverse_reverse, List.length_reverse, List.length_map]
  exact hdecode

/-- **A text of digits that is too short panics** at its first character. -/
theorem decodeNixBase32_short {vs : List Nat} (hvs : ∀ v ∈ vs, v < 32) (hshort : Short vs.length) :
    decodeNixBase32 (nixText vs) = .error .indexOutOfBounds := by
  unfold Short at hshort
  have hne : vs ≠ [] := by
    intro h
    obtain rfl := h
    simp at hshort
  obtain ⟨init, last, rfl⟩ := List.eq_nil_or_concat vs |>.resolve_left hne
  rw [List.concat_eq_append, List.length_append, List.length_singleton] at hshort
  rw [List.concat_eq_append] at hvs ⊢
  have hinit : ∀ v ∈ init, v < 32 := fun v hv => hvs v (List.mem_append_left _ hv)
  have hlast : last < 32 := hvs last List.mem_concat_self
  obtain ⟨out, hdecode, hlen, -⟩ := @decodeQuintets_digits init hinit
    (List.replicate ((init.length + 1) * 5 / 8) 0) 0 0 (by decide) (value_replicate_zero _) fun j _ hj => by
      rw [List.length_replicate]
      exact quintet_fits (by omega) (Or.inl (by omega))
  rw [List.length_replicate] at hlen
  have hbehind : out[init.length * 5 / 8]? = none := by
    rw [List.getElem?_eq_none_iff, hlen]
    omega
  have hset : setNixBase32Quintet out init.length (UInt8.ofNat last) = .error .indexOutOfBounds := by
    rw [setNixBase32Quintet_eq_split]
    simp only [splitQuintet, orByte, hbehind]
  simp only [decodeNixBase32, utf8_nixText hvs, List.reverse_reverse, List.length_reverse, List.length_map,
    List.length_append, List.length_singleton]
  rw [List.map_append, decodeQuintets_append hdecode, List.length_map, Nat.zero_add]
  simp only [List.map_cons, decodeQuintets, idxOf?_nixByte hlast, hset]

/-- **A text with another character** is refused, whatever its length. -/
theorem decodeNixBase32_other {text : Text} (h : ¬ ∃ vs, (∀ v ∈ vs, v < 32) ∧ text = nixText vs) :
    decodeNixBase32 text = .ok none := by
  have hutf8 : ∀ vs : List Nat, (∀ v ∈ vs, v < 32) → (Text.utf8 text).reverse ≠ vs.map nixByte := by
    intro vs hvs heq
    refine h ⟨vs, hvs, ?_⟩
    have hbytes : Text.utf8 text = Text.utf8 (nixText vs) := by
      rw [utf8_nixText hvs, ← heq, List.reverse_reverse]
    have htext := congrArg Text.fromUtf8 hbytes
    rw [Text.fromUtf8_utf8, Text.fromUtf8_utf8] at htext
    exact Option.some.inj htext
  rcases digits_or_other (Text.utf8 text).reverse with ⟨vs, hvs, heq⟩ | ⟨vs, other, rest, hvs, hother, heq⟩
  · exact absurd heq (hutf8 vs hvs)
  · have hlen : (Text.utf8 text).length = vs.length + (rest.length + 1) := by
      rw [← List.length_reverse, heq, List.length_append, List.length_map, List.length_cons]
    obtain ⟨out, hdecode, -, -⟩ := @decodeQuintets_digits vs hvs
      (List.replicate ((Text.utf8 text).length * 5 / 8) 0) 0 0 (by decide) (value_replicate_zero _)
      fun j _ hj => by
        rw [List.length_replicate]
        exact quintet_fits (by omega) (Or.inl (by omega))
    simp only [decodeNixBase32]
    rw [heq, decodeQuintets_append hdecode]
    simp only [decodeQuintets, hother]

end GuixP2p
