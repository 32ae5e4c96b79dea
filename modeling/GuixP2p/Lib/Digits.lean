import Mathlib.Data.Nat.Digits.Lemmas

/-!
# GuixP2p.Lib.Digits

**Positional notation with a fixed number of digits**, least significant digit first.
Mathlib's `Nat.ofDigits` reads a list of digits; `digitsOf` writes a number with a given number
of digits. A byte string is read in base 256.
-/

namespace GuixP2p.Lib.Digits

open Nat (ofDigits)

/-- The `n` lowest digits of a number. -/
def digitsOf (b n N : Nat) : List Nat := (List.range n).map fun k => N / b ^ k % b

@[simp] theorem length_digitsOf (b n N : Nat) : (digitsOf b n N).length = n := by simp [digitsOf]

theorem digitsOf_succ (b n N : Nat) : digitsOf b (n + 1) N = N % b :: digitsOf b n (N / b) := by
  unfold digitsOf
  rw [List.range_succ_eq_map, List.map_cons, List.map_map, Nat.pow_zero, Nat.div_one]
  congr 1
  refine List.map_congr_left fun k _ => ?_
  rw [Function.comp_apply, Nat.pow_succ', Nat.div_div_eq_div_mul]

theorem lt_of_mem_digitsOf {b n N v : Nat} (hb : 0 < b) (h : v ∈ digitsOf b n N) : v < b := by
  obtain ⟨k, -, rfl⟩ := List.mem_map.mp h
  exact Nat.mod_lt _ hb

/-- Writing and reading keeps the lowest digits. -/
theorem ofDigits_digitsOf (b n N : Nat) : ofDigits b (digitsOf b n N) = N % b ^ n := by
  induction n generalizing N with
  | zero => simp [digitsOf, Nat.mod_one]
  | succ n ih => rw [digitsOf_succ, Nat.ofDigits_cons, ih, Nat.pow_succ', Nat.mod_mul]

/-- Reading and writing gives the digits back. -/
theorem digitsOf_ofDigits {b : Nat} {vs : List Nat} (h : ∀ v ∈ vs, v < b) :
    digitsOf b vs.length (ofDigits b vs) = vs := by
  induction vs with
  | nil => rfl
  | cons v vs ih =>
      rw [List.forall_mem_cons] at h
      have hb : 0 < b := Nat.lt_of_le_of_lt (Nat.zero_le v) h.1
      rw [List.length_cons, digitsOf_succ, Nat.ofDigits_cons, Nat.add_mul_mod_self_left,
        Nat.mod_eq_of_lt h.1, Nat.add_mul_div_left _ _ hb, Nat.div_eq_of_lt h.1, Nat.zero_add, ih h.2]

/-- A digit of a number. -/
theorem ofDigits_div_mod {b : Nat} {vs : List Nat} (h : ∀ v ∈ vs, v < b) {k : Nat} (hk : k < vs.length) :
    ofDigits b vs / b ^ k % b = vs[k] := by
  have hget : (digitsOf b vs.length (ofDigits b vs))[k]? = vs[k]? := by rw [digitsOf_ofDigits h]
  simpa [digitsOf, hk] using hget

/-- To add to a digit is to add to the number. -/
theorem ofDigits_set {b : Nat} {vs : List Nat} {k v : Nat} (hk : k < vs.length) :
    ofDigits b (vs.set k (vs[k] + v)) = ofDigits b vs + v * b ^ k := by
  induction vs generalizing k with
  | nil => cases hk
  | cons w vs ih =>
      cases k with
      | zero =>
          simp only [List.set_cons_zero, List.getElem_cons_zero, Nat.ofDigits_cons]
          ring
      | succ k =>
          simp only [List.set_cons_succ, List.getElem_cons_succ, Nat.ofDigits_cons,
            ih (Nat.lt_of_succ_lt_succ hk)]
          ring

/-! ### Byte strings -/

/-- The number whose little-endian bytes these are. -/
def value (bytes : List UInt8) : Nat := ofDigits 256 (bytes.map UInt8.toNat)

theorem toNat_lt_of_mem {bytes : List UInt8} {v : Nat} (h : v ∈ bytes.map UInt8.toNat) : v < 256 := by
  obtain ⟨byte, -, rfl⟩ := List.mem_map.mp h
  exact byte.toNat_lt

theorem value_lt (bytes : List UInt8) : value bytes < 256 ^ bytes.length := by
  have hlt := Nat.ofDigits_lt_base_pow_length (b := 256) (l := bytes.map UInt8.toNat) (by decide)
    fun v hv => toNat_lt_of_mem hv
  rwa [List.length_map] at hlt

/-- Byte strings of one length are told apart by their numbers. -/
theorem value_injective {xs ys : List UInt8} (hlen : xs.length = ys.length) (h : value xs = value ys) :
    xs = ys := by
  have hdigits : xs.map UInt8.toNat = ys.map UInt8.toNat :=
    Nat.ofDigits_inj_of_len_eq (by decide) (by rw [List.length_map, List.length_map, hlen])
      (fun v hv => toNat_lt_of_mem hv) (fun v hv => toNat_lt_of_mem hv) h
  exact List.map_injective_iff.mpr (fun _ _ => UInt8.toNat_inj.mp) hdigits

theorem value_replicate_zero (n : Nat) : value (List.replicate n 0) = 0 := by
  rw [value, List.map_replicate]
  exact Nat.ofDigits_replicate_zero

/-- A byte of a number. -/
theorem value_div_mod {bytes : List UInt8} {k : Nat} (hk : k < bytes.length) :
    value bytes / 256 ^ k % 256 = bytes[k].toNat := by
  rw [value, ofDigits_div_mod (fun v hv => toNat_lt_of_mem hv) (by rwa [List.length_map]), List.getElem_map]

/-- **Bits that are added to a byte with room for them** are added to the number. -/
theorem value_set {bytes : List UInt8} {k : Nat} {byte : UInt8} {v : Nat} (hk : k < bytes.length)
    (hbyte : byte.toNat = bytes[k].toNat + v) : value (bytes.set k byte) = value bytes + v * 256 ^ k := by
  have hk' : k < (bytes.map UInt8.toNat).length := by rwa [List.length_map]
  have hset : (bytes.set k byte).map UInt8.toNat =
      (bytes.map UInt8.toNat).set k ((bytes.map UInt8.toNat)[k] + v) := by
    rw [List.map_set, hbyte, List.getElem_map]
  rw [value, hset, ofDigits_set, value]

end GuixP2p.Lib.Digits
