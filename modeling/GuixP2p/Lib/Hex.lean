import Mathlib.Data.List.Basic
import Mathlib.Tactic.IntervalCases

/-!
# GuixP2p.Lib.Hex

**Hexadecimal text of a byte string**: two lower-case digits per byte, the high
nibble first. Encoding is injective, so two byte strings may be compared by
their texts.
-/

namespace GuixP2p.Lib.Hex

/-- The lower-case digit of a nibble. -/
def digit (n : Nat) : Char :=
  if n < 10 then Char.ofNat (48 + n) else Char.ofNat (87 + n)

/-- The value of a digit of either case. -/
def digitValue (c : Char) : Option Nat :=
  let n := c.toNat
  if 48 ≤ n ∧ n ≤ 57 then some (n - 48)
  else if 97 ≤ n ∧ n ≤ 102 then some (n - 87)
  else if 65 ≤ n ∧ n ≤ 70 then some (n - 55)
  else none

/-- The text of a byte string. -/
def encode : List UInt8 → List Char
  | [] => []
  | b :: bs => digit (b.toNat / 16) :: digit (b.toNat % 16) :: encode bs

/-- The byte string of a text of digit pairs. -/
def decode : List Char → Option (List UInt8)
  | [] => some []
  | [_] => none
  | hi :: lo :: rest =>
    match digitValue hi, digitValue lo, decode rest with
    | some h, some l, some bytes => some (UInt8.ofNat (h * 16 + l) :: bytes)
    | _, _, _ => none

theorem digitValue_digit {n : Nat} (h : n < 16) : digitValue (digit n) = some n := by
  interval_cases n <;> rfl

theorem digit_injective {m n : Nat} (hm : m < 16) (hn : n < 16) (h : digit m = digit n) :
    m = n := by
  have hval := congrArg digitValue h
  rw [digitValue_digit hm, digitValue_digit hn] at hval
  exact Option.some.inj hval

/-- **Encoding is injective.** -/
theorem encode_injective : Function.Injective encode := by
  intro xs
  induction xs with
  | nil =>
      intro ys h
      cases ys with
      | nil => rfl
      | cons y ys => simp [encode] at h
  | cons x xs ih =>
      intro ys h
      cases ys with
      | nil => simp [encode] at h
      | cons y ys =>
          simp only [encode, List.cons.injEq] at h
          have hx := x.toNat_lt
          have hy := y.toNat_lt
          have hhi := digit_injective (by omega) (by omega) h.1
          have hlo := digit_injective (by omega) (by omega) h.2.1
          have hxy : x = y := UInt8.toNat_inj.mp (by omega)
          rw [hxy, ih h.2.2]

theorem encode_ne_nil {bs : List UInt8} (h : bs ≠ []) : encode bs ≠ [] := by
  cases bs with
  | nil => exact absurd rfl h
  | cons b bs => exact List.cons_ne_nil _ _

/-- What is not a digit does not occur. -/
theorem not_mem_encode {c : Char} (hc : digitValue c = none) {bs : List UInt8} : c ∉ encode bs := by
  have hne : ∀ n, n < 16 → c ≠ digit n := by
    intro n hn heq
    rw [heq, digitValue_digit hn] at hc
    cases hc
  induction bs with
  | nil => exact List.not_mem_nil
  | cons b bs ih =>
      have hb := b.toNat_lt
      simp only [encode, List.mem_cons, not_or]
      exact ⟨hne _ (by omega), hne _ (by omega), ih⟩

theorem toLower_digit {n : Nat} (h : n < 16) : (digit n).toLower = digit n := by
  interval_cases n <;> rfl

/-- The digits are lower case. -/
@[simp] theorem map_toLower_encode (bs : List UInt8) : (encode bs).map Char.toLower = encode bs := by
  induction bs with
  | nil => rfl
  | cons b bs ih =>
      have hb := b.toNat_lt
      simp only [encode, List.map_cons, ih, toLower_digit (show b.toNat / 16 < 16 by omega),
        toLower_digit (show b.toNat % 16 < 16 by omega)]

/-! ### Texts that spell a byte string -/

/-- The digits of a byte string, the high one of each byte first. -/
def digits (bs : List UInt8) : List Nat := bs.flatMap fun b => [b.toNat / 16, b.toNat % 16]

theorem digitValue_lt {c : Char} {n : Nat} (h : digitValue c = some n) : n < 16 := by
  simp only [digitValue] at h
  split at h
  · cases h; omega
  · split at h
    · cases h; omega
    · split at h
      · cases h; omega
      · cases h

theorem toNat_lt_of_digit {c : Char} (h : (digitValue c).isSome) : c.toNat < 128 := by
  simp only [digitValue] at h
  split at h
  · omega
  · split at h
    · omega
    · split at h
      · omega
      · cases h

/-- **Decoding reads the digits.** -/
theorem decode_eq_some_iff {t : List Char} {bs : List UInt8} :
    decode t = some bs ↔ t.map digitValue = (digits bs).map some := by
  induction bs generalizing t with
  | nil =>
      match t with
      | [] => simp [decode, digits]
      | [_] => simp [decode, digits]
      | hi :: lo :: rest =>
          simp only [decode, digits, List.flatMap_nil, List.map_nil, List.map_cons, reduceCtorEq, iff_false]
          split <;> simp
  | cons b bs ih =>
      match t with
      | [] => simp [decode, digits]
      | [_] => simp [decode, digits]
      | hi :: lo :: rest =>
          have hb := b.toNat_lt
          have htail : (digits (b :: bs)).map some =
              some (b.toNat / 16) :: some (b.toNat % 16) :: (digits bs).map some := rfl
          rw [htail, decode, List.map_cons, List.map_cons, List.cons.injEq, List.cons.injEq, ← ih]
          constructor
          · intro h
            split at h
            next hv lv bytes hhi hlo hrest =>
              have hhiLt := digitValue_lt hhi
              have hloLt := digitValue_lt hlo
              obtain ⟨rfl, rfl⟩ := List.cons.inj (Option.some.inj h)
              have hvalue : (UInt8.ofNat (hv * 16 + lv)).toNat = hv * 16 + lv := by
                rw [UInt8.toNat_ofNat', Nat.mod_eq_of_lt (by omega)]
              rw [hhi, hlo, hvalue]
              exact ⟨congrArg some (by omega), congrArg some (by omega), hrest⟩
            next => cases h
          · intro h
            obtain ⟨hhi, hlo, hrest⟩ := h
            rw [hhi, hlo, hrest]
            have hvalue : UInt8.ofNat (b.toNat / 16 * 16 + b.toNat % 16) = b := by
              rw [Nat.div_add_mod', UInt8.ofNat_toNat]
            simp only [hvalue]

/-- Pairs of digits always decode. -/
theorem decode_of_digits {t : List Char} (h : ∀ c ∈ t, (digitValue c).isSome) {n : Nat}
    (hlen : t.length = 2 * n) : ∃ bs, decode t = some bs ∧ bs.length = n := by
  induction n generalizing t with
  | zero =>
      obtain rfl := List.length_eq_zero_iff.mp hlen
      exact ⟨[], rfl, rfl⟩
  | succ n ih =>
      match t, hlen with
      | hi :: lo :: rest, hlen =>
          rw [List.forall_mem_cons, List.forall_mem_cons] at h
          obtain ⟨hv, hhi⟩ := Option.isSome_iff_exists.mp h.1
          obtain ⟨lv, hlo⟩ := Option.isSome_iff_exists.mp h.2.1
          obtain ⟨bs, hrest, hbs⟩ := ih h.2.2 (by simp only [List.length_cons] at hlen; omega)
          exact ⟨UInt8.ofNat (hv * 16 + lv) :: bs, by simp only [decode, hhi, hlo, hrest], by rw [List.length_cons, hbs]⟩

theorem length_digits (bs : List UInt8) : (digits bs).length = 2 * bs.length := by
  induction bs with
  | nil => rfl
  | cons b bs ih =>
      have hcons : digits (b :: bs) = b.toNat / 16 :: b.toNat % 16 :: digits bs := rfl
      rw [hcons, List.length_cons, List.length_cons, ih, List.length_cons]
      omega

theorem encode_eq_map (bs : List UInt8) : encode bs = (digits bs).map digit := by
  induction bs with
  | nil => rfl
  | cons b bs ih =>
      rw [encode, ih]
      rfl

theorem lt_of_mem_digits {bs : List UInt8} {n : Nat} (h : n ∈ digits bs) : n < 16 := by
  obtain ⟨b, -, hn⟩ := List.mem_flatMap.mp h
  have hb := b.toNat_lt
  simp only [List.mem_cons, List.not_mem_nil, or_false] at hn
  omega

theorem digitValue_toUpper_digit {n : Nat} (h : n < 16) : digitValue (digit n).toUpper = some n := by
  interval_cases n <;> rfl

end GuixP2p.Lib.Hex
