import Mathlib.Data.List.Basic
import Mathlib.Tactic.IntervalCases

/-!
# GuixP2p.Lib.Base64

**Base64 text of a byte string**, with the standard alphabet and padding. Three bytes make
four digits of six bits; one or two bytes at the end are padded with `=`.

Decoding is strict: the text comes in groups of four, only the last one may be padded, and
the bits that padding leaves over are zero. So it accepts exactly one text for each byte
string, and `decode_encode` is the round trip.
-/

namespace GuixP2p.Lib.Base64

/-- The digit of six bits. -/
def digit (n : Nat) : Char :=
  if n < 26 then Char.ofNat (65 + n)
  else if n < 52 then Char.ofNat (71 + n)
  else if n < 62 then Char.ofNat (n - 4)
  else if n = 62 then '+'
  else '/'

/-- The value of a digit. -/
def digitValue (c : Char) : Option Nat :=
  let n := c.toNat
  if 65 ≤ n ∧ n ≤ 90 then some (n - 65)
  else if 97 ≤ n ∧ n ≤ 122 then some (n - 71)
  else if 48 ≤ n ∧ n ≤ 57 then some (n + 4)
  else if c = '+' then some 62
  else if c = '/' then some 63
  else none

/-- The text of a byte string. -/
def encode : List UInt8 → List Char
  | [] => []
  | [a] => [digit (a.toNat / 4), digit (a.toNat % 4 * 16), '=', '=']
  | [a, b] =>
    [digit (a.toNat / 4), digit (a.toNat % 4 * 16 + b.toNat / 16), digit (b.toNat % 16 * 4), '=']
  | a :: b :: c :: rest =>
    digit (a.toNat / 4) :: digit (a.toNat % 4 * 16 + b.toNat / 16) ::
      digit (b.toNat % 16 * 4 + c.toNat / 64) :: digit (c.toNat % 64) :: encode rest

/-- The bytes of the last group of four characters. -/
def decodeLast (w x y z : Char) : Option (List UInt8) :=
  match digitValue w, digitValue x with
  | some w, some x =>
    if y = '=' ∧ z = '=' then
      if x % 16 = 0 then some [UInt8.ofNat (w * 4 + x / 16)] else none
    else if z = '=' then
      match digitValue y with
      | some y =>
        if y % 4 = 0 then some [UInt8.ofNat (w * 4 + x / 16), UInt8.ofNat (x % 16 * 16 + y / 4)]
        else none
      | none => none
    else
      match digitValue y, digitValue z with
      | some y, some z =>
        some [UInt8.ofNat (w * 4 + x / 16), UInt8.ofNat (x % 16 * 16 + y / 4),
          UInt8.ofNat (y % 4 * 64 + z)]
      | _, _ => none
  | _, _ => none

/-- The byte string of a text. -/
def decode : List Char → Option (List UInt8)
  | [] => some []
  | [w, x, y, z] => decodeLast w x y z
  | w :: x :: y :: z :: rest =>
    match digitValue w, digitValue x, digitValue y, digitValue z, decode rest with
    | some w, some x, some y, some z, some bytes =>
      some (UInt8.ofNat (w * 4 + x / 16) :: UInt8.ofNat (x % 16 * 16 + y / 4) ::
        UInt8.ofNat (y % 4 * 64 + z) :: bytes)
    | _, _, _, _, _ => none
  | _ => none

theorem digitValue_digit {n : Nat} (h : n < 64) : digitValue (digit n) = some n := by
  interval_cases n <;> rfl

theorem digit_ne {n : Nat} (h : n < 64) {c : Char} (hc : digitValue c = none) : digit n ≠ c := by
  intro heq
  rw [← heq, digitValue_digit h] at hc
  cases hc

theorem encode_ne_nil {bs : List UInt8} (h : bs ≠ []) : encode bs ≠ [] := by
  match bs with
  | [] => exact absurd rfl h
  | [_] => simp [encode]
  | [_, _] => simp [encode]
  | _ :: _ :: _ :: _ => simp [encode]

/-- Only digits and padding occur. -/
theorem not_mem_encode {c : Char} (hc : digitValue c = none) (hpad : c ≠ '=') (bs : List UInt8) :
    c ∉ encode bs := by
  fun_induction encode bs with
  | case1 => exact List.not_mem_nil
  | case2 a =>
      have ha := a.toNat_lt
      simp [Ne.symm (digit_ne (show a.toNat / 4 < 64 by omega) hc),
        Ne.symm (digit_ne (show a.toNat % 4 * 16 < 64 by omega) hc), hpad]
  | case3 a b =>
      have ha := a.toNat_lt
      have hb := b.toNat_lt
      simp [Ne.symm (digit_ne (show a.toNat / 4 < 64 by omega) hc),
        Ne.symm (digit_ne (show a.toNat % 4 * 16 + b.toNat / 16 < 64 by omega) hc),
        Ne.symm (digit_ne (show b.toNat % 16 * 4 < 64 by omega) hc), hpad]
  | case4 a b c' rest ih =>
      have ha := a.toNat_lt
      have hb := b.toNat_lt
      have hc' := c'.toNat_lt
      simp [Ne.symm (digit_ne (show a.toNat / 4 < 64 by omega) hc),
        Ne.symm (digit_ne (show a.toNat % 4 * 16 + b.toNat / 16 < 64 by omega) hc),
        Ne.symm (digit_ne (show b.toNat % 16 * 4 + c'.toNat / 64 < 64 by omega) hc),
        Ne.symm (digit_ne (show c'.toNat % 64 < 64 by omega) hc), ih]

/-! ### The round trip -/

section

variable (a b c : UInt8)

theorem first_byte : UInt8.ofNat (a.toNat / 4 * 4 + (a.toNat % 4 * 16 + b.toNat / 16) / 16) = a := by
  have hb := b.toNat_lt
  have hsum : a.toNat / 4 * 4 + (a.toNat % 4 * 16 + b.toNat / 16) / 16 = a.toNat := by omega
  rw [hsum, UInt8.ofNat_toNat]

theorem second_byte :
    UInt8.ofNat ((a.toNat % 4 * 16 + b.toNat / 16) % 16 * 16 + (b.toNat % 16 * 4 + c.toNat / 64) / 4) =
      b := by
  have hb := b.toNat_lt
  have hc := c.toNat_lt
  have hsum : (a.toNat % 4 * 16 + b.toNat / 16) % 16 * 16 + (b.toNat % 16 * 4 + c.toNat / 64) / 4 =
      b.toNat := by omega
  rw [hsum, UInt8.ofNat_toNat]

theorem third_byte :
    UInt8.ofNat ((b.toNat % 16 * 4 + c.toNat / 64) % 4 * 64 + c.toNat % 64) = c := by
  have hc := c.toNat_lt
  have hsum : (b.toNat % 16 * 4 + c.toNat / 64) % 4 * 64 + c.toNat % 64 = c.toNat := by omega
  rw [hsum, UInt8.ofNat_toNat]

/-- The digits of three bytes. -/
theorem digitValue_triple :
    digitValue (digit (a.toNat / 4)) = some (a.toNat / 4) ∧
      digitValue (digit (a.toNat % 4 * 16 + b.toNat / 16)) = some (a.toNat % 4 * 16 + b.toNat / 16) ∧
      digitValue (digit (b.toNat % 16 * 4 + c.toNat / 64)) = some (b.toNat % 16 * 4 + c.toNat / 64) ∧
      digitValue (digit (c.toNat % 64)) = some (c.toNat % 64) := by
  have ha := a.toNat_lt
  have hb := b.toNat_lt
  have hc := c.toNat_lt
  exact ⟨digitValue_digit (by omega), digitValue_digit (by omega), digitValue_digit (by omega),
    digitValue_digit (by omega)⟩

theorem decodeLast_triple :
    decodeLast (digit (a.toNat / 4)) (digit (a.toNat % 4 * 16 + b.toNat / 16))
      (digit (b.toNat % 16 * 4 + c.toNat / 64)) (digit (c.toNat % 64)) = some [a, b, c] := by
  obtain ⟨hw, hx, hy, hz⟩ := digitValue_triple a b c
  have hpad : digit (c.toNat % 64) ≠ '=' := digit_ne (by omega) rfl
  simp only [decodeLast, hw, hx, hy, hz, hpad, and_false, if_false, first_byte, second_byte,
    third_byte]

theorem decodeLast_pair :
    decodeLast (digit (a.toNat / 4)) (digit (a.toNat % 4 * 16 + b.toNat / 16))
      (digit (b.toNat % 16 * 4)) '=' = some [a, b] := by
  obtain ⟨hw, hx, hy, -⟩ := digitValue_triple a b 0
  have hsecond := second_byte a b 0
  have hpad : digit (b.toNat % 16 * 4) ≠ '=' := digit_ne (by omega) rfl
  simp only [UInt8.toNat_zero, Nat.zero_div, Nat.add_zero] at hy hsecond
  simp only [decodeLast, hw, hx, hy, hpad, false_and, if_false, if_true, Nat.mul_mod_left, first_byte,
    hsecond]

theorem decodeLast_single :
    decodeLast (digit (a.toNat / 4)) (digit (a.toNat % 4 * 16)) '=' '=' = some [a] := by
  obtain ⟨hw, hx, -, -⟩ := digitValue_triple a 0 0
  have hfirst := first_byte a 0
  simp only [UInt8.toNat_zero, Nat.zero_div, Nat.add_zero] at hx hfirst
  simp only [decodeLast, hw, hx, and_self, if_true, Nat.mul_mod_left, hfirst]

end

/-- **Round trip.** -/
theorem decode_encode (bs : List UInt8) : decode (encode bs) = some bs := by
  fun_induction encode bs with
  | case1 => rfl
  | case2 a => exact decodeLast_single a
  | case3 a b => exact decodeLast_pair a b
  | case4 a b c rest ih =>
      cases rest with
      | nil => exact decodeLast_triple a b c
      | cons d rest =>
          obtain ⟨hw, hx, hy, hz⟩ := digitValue_triple a b c
          obtain ⟨e, es, hes⟩ := List.exists_cons_of_ne_nil (encode_ne_nil (List.cons_ne_nil d rest))
          rw [hes] at ih ⊢
          simp only [decode, hw, hx, hy, hz, ih, first_byte, second_byte, third_byte]

end GuixP2p.Lib.Base64
