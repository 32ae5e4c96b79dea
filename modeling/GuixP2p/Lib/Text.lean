import Mathlib.Algebra.Group.Nat.Defs
import Mathlib.Data.List.Basic

/-!
# GuixP2p.Lib.Text

**Rust's string functions on character lists.** A `&str` is a list of Unicode scalar
values, and each function below follows the documented behaviour of the `str` method
of the same name: what counts as white space, which line endings `lines` strips, what
`parse::<u64>` accepts.
-/

namespace GuixP2p.Lib.Text

/-- The Unicode `White_Space` property. -/
def isWhitespace (c : Char) : Bool :=
  let n := c.toNat
  decide (9 ≤ n ∧ n ≤ 13) || decide (n = 0x20) || decide (n = 0x85) || decide (n = 0xA0) ||
    decide (n = 0x1680) || decide (0x2000 ≤ n ∧ n ≤ 0x200A) || decide (n = 0x2028) ||
    decide (n = 0x2029) || decide (n = 0x202F) || decide (n = 0x205F) || decide (n = 0x3000)

/-- Drop a suffix of characters that satisfy `p` (`trim_end_matches`). -/
def dropEndWhile (p : Char → Bool) (t : List Char) : List Char :=
  (t.reverse.dropWhile p).reverse

def trimEnd (t : List Char) : List Char := dropEndWhile isWhitespace t

def trim (t : List Char) : List Char := dropEndWhile isWhitespace (t.dropWhile isWhitespace)

/-- Split before the first occurrence of a pattern (`find` and `split_at`). -/
def splitAtFirst (pat : List Char) : List Char → Option (List Char × List Char)
  | [] => if pat = [] then some ([], []) else none
  | c :: cs =>
    if pat.isPrefixOf (c :: cs) then some ([], c :: cs)
    else (splitAtFirst pat cs).map fun p => (c :: p.1, p.2)

/-- A pattern that does not repeat its first character cannot overlap with itself, so a
text without it ends before the pattern that follows the text. -/
theorem splitAtFirst_append {c₀ : Char} {pat s : List Char} (hfirst : c₀ ∉ pat)
    (hs : ¬ (c₀ :: pat) <:+: s) (t : List Char) :
    splitAtFirst (c₀ :: pat) (s ++ (c₀ :: pat ++ t)) = some (s, c₀ :: pat ++ t) := by
  induction s with
  | nil =>
      have hpre : (c₀ :: pat).isPrefixOf (c₀ :: pat ++ t) = true :=
        List.isPrefixOf_iff_prefix.mpr (List.prefix_append _ _)
      show (if (c₀ :: pat).isPrefixOf (c₀ :: pat ++ t) = true then _ else _) = _
      rw [if_pos hpre]
      rfl
  | cons c s ih =>
      have hnot : ¬ (c₀ :: pat).isPrefixOf (c :: (s ++ (c₀ :: pat ++ t))) = true := by
        intro hpre
        rw [List.isPrefixOf_iff_prefix, ← List.cons_append] at hpre
        rcases List.prefix_or_prefix_of_prefix hpre (List.prefix_append (c :: s) _) with hin | ⟨u, heq⟩
        · exact hs hin.isInfix
        · -- the occurrence starts in the text and ends in the pattern
          rw [← heq, List.prefix_append_right_inj] at hpre
          rw [List.cons_append, List.cons.injEq] at heq
          cases u with
          | nil => exact hs ⟨[], [], by simp [← heq.1, ← heq.2]⟩
          | cons d u =>
              have hd : d = c := (List.cons_prefix_cons.mp hpre).1
              exact hfirst (by rw [← heq.1, ← heq.2, hd]; exact List.mem_append_cons_self)
      have hs' : ¬ (c₀ :: pat) <:+: s := fun hin => hs (List.infix_cons hin)
      rw [List.cons_append, splitAtFirst, if_neg hnot, ih hs']
      rfl

/-- Split around the first separator. -/
def splitOnce (sep : Char) : List Char → Option (List Char × List Char)
  | [] => none
  | c :: cs =>
    if c = sep then some ([], cs) else (splitOnce sep cs).map fun p => (c :: p.1, p.2)

/-- Split into at most `n` parts. -/
def splitN : Nat → Char → List Char → List (List Char)
  | 0, _, _ => []
  | 1, _, t => [t]
  | n + 2, sep, t =>
    match splitOnce sep t with
    | none => [t]
    | some (a, b) => a :: splitN (n + 1) sep b

/-- Remove one carriage return at the end. -/
def stripCr (t : List Char) : List Char := if t.getLast? = some '\r' then t.dropLast else t

/-- `lines`, with the current line so far in reverse. -/
def linesGo : List Char → List Char → List (List Char)
  | acc, [] => if acc = [] then [] else [acc.reverse]
  | acc, c :: cs =>
    if c = '\n' then stripCr acc.reverse :: linesGo [] cs else linesGo (c :: acc) cs

/-- The lines of a text. A line ends with `\n` or `\r\n`; the last one may end without. -/
def lines (t : List Char) : List (List Char) := linesGo [] t

/-- `split_whitespace`, with the current word so far in reverse. -/
def wordsGo : List Char → List Char → List (List Char)
  | acc, [] => if acc = [] then [] else [acc.reverse]
  | acc, c :: cs =>
    if isWhitespace c then
      if acc = [] then wordsGo [] cs else acc.reverse :: wordsGo [] cs
    else wordsGo (c :: acc) cs

def splitWhitespace (t : List Char) : List (List Char) := wordsGo [] t

/-- The value of an ASCII digit. -/
def decimalDigit (c : Char) : Option Nat :=
  if 48 ≤ c.toNat ∧ c.toNat ≤ 57 then some (c.toNat - 48) else none

/-- The value of a digit string that fits 64 bits, read after `acc`. -/
def parseDigits : Nat → List Char → Option Nat
  | acc, [] => some acc
  | acc, c :: cs =>
    match decimalDigit c with
    | none => none
    | some d => if acc * 10 + d < 2 ^ 64 then parseDigits (acc * 10 + d) cs else none

/-- `parse::<u64>`: digits, at least one, after an optional plus sign. -/
def parseU64 (t : List Char) : Option UInt64 :=
  let digits := if t.head? = some '+' then t.tail else t
  if digits = [] then none else (parseDigits 0 digits).map UInt64.ofNat

/-- Decimal text of a number. -/
def ofNat (n : Nat) : List Char := Nat.toDigits 10 n

/-- The UTF-8 bytes of a text. -/
def utf8 (t : List Char) : List UInt8 := t.flatMap String.utf8EncodeChar

/-- An ASCII text has a byte for each character. -/
theorem length_utf8_of_ascii {t : List Char} (h : ∀ c ∈ t, c.toNat < 128) : (utf8 t).length = t.length := by
  induction t with
  | nil => rfl
  | cons c t ih =>
      rw [List.forall_mem_cons] at h
      have hone : c.utf8Size = 1 := by
        rw [Char.utf8Size_eq_one_iff, UInt32.le_iff_toNat_le]
        exact Nat.le_of_lt_succ h.1
      have htail := ih h.2
      rw [utf8] at htail
      rw [utf8, List.flatMap_cons, List.length_append, String.length_utf8EncodeChar, hone, htail,
        List.length_cons, Nat.add_comm]

/-! ### Beginnings -/

theorem dropPrefix?_append_self (p t : List Char) : (p ++ t).dropPrefix? p = some t :=
  List.dropPrefix?_eq_some_iff.mpr ⟨p, rfl, beq_self_eq_true p⟩

theorem dropPrefix?_eq_none {p t : List Char} (h : ¬ p <+: t) : t.dropPrefix? p = none := by
  rw [Option.eq_none_iff_forall_ne_some]
  intro rest heq
  obtain ⟨p', rfl, hp'⟩ := List.dropPrefix?_eq_some_iff.mp heq
  rw [eq_of_beq hp'] at h
  exact h (List.prefix_append p rest)

/-! ### Characters

None of the functions makes up characters. -/

section

variable {c : Char} {t : List Char}

theorem mem_of_mem_dropWhile {p : Char → Bool} (h : c ∈ t.dropWhile p) : c ∈ t :=
  (List.dropWhile_sublist p).mem h

theorem mem_of_mem_dropEndWhile {p : Char → Bool} (h : c ∈ dropEndWhile p t) : c ∈ t := by
  rw [dropEndWhile, List.mem_reverse] at h
  exact List.mem_reverse.mp (mem_of_mem_dropWhile h)

theorem mem_of_mem_trim (h : c ∈ trim t) : c ∈ t := mem_of_mem_dropWhile (mem_of_mem_dropEndWhile h)

theorem mem_of_splitOnce {sep : Char} {a b : List Char} (h : splitOnce sep t = some (a, b))
    (hc : c ∈ a ∨ c ∈ b) : c ∈ t := by
  induction t generalizing a with
  | nil => cases h
  | cons d t ih =>
      rw [splitOnce] at h
      split at h
      next =>
        cases h
        exact List.mem_cons_of_mem d (hc.resolve_left List.not_mem_nil)
      next =>
        obtain ⟨⟨a', b'⟩, hsplit, heq⟩ := Option.map_eq_some_iff.mp h
        obtain ⟨rfl, rfl⟩ := Prod.mk.inj heq
        rcases hc with hc | hc
        · rcases List.mem_cons.mp hc with rfl | hc
          · exact List.mem_cons_self
          · exact List.mem_cons_of_mem d (ih hsplit (Or.inl hc))
        · exact List.mem_cons_of_mem d (ih hsplit (Or.inr hc))

theorem mem_of_mem_splitN {n : Nat} {sep : Char} {part : List Char} (h : part ∈ splitN n sep t)
    (hc : c ∈ part) : c ∈ t := by
  induction n, sep, t using splitN.induct with
  | case1 sep t => cases h
  | case2 sep t =>
      rw [splitN, List.mem_singleton] at h
      rwa [h] at hc
  | case3 n sep t hsplit =>
      rw [splitN, hsplit, List.mem_singleton] at h
      rwa [h] at hc
  | case4 n sep t a b hsplit ih =>
      rw [splitN, hsplit, List.mem_cons] at h
      rcases h with rfl | h
      · exact mem_of_splitOnce hsplit (Or.inl hc)
      · exact mem_of_splitOnce hsplit (Or.inr (ih h))

theorem mem_of_mem_stripCr (h : c ∈ stripCr t) : c ∈ t := by
  rw [stripCr] at h
  split at h
  · exact (List.dropLast_sublist t).mem h
  · exact h

/-- A word has no whitespace in it. -/
theorem isWhitespace_of_mem_splitWhitespace {word : List Char} (h : word ∈ splitWhitespace t) :
    ∀ c ∈ word, isWhitespace c = false := by
  have hgo : ∀ acc, (∀ c ∈ acc, isWhitespace c = false) → ∀ word ∈ wordsGo acc t, ∀ c ∈ word,
      isWhitespace c = false := by
    clear h
    induction t with
    | nil =>
        intro acc hacc word hword c hc
        rw [wordsGo] at hword
        split at hword
        · cases hword
        · rw [List.mem_singleton.mp hword, List.mem_reverse] at hc
          exact hacc c hc
    | cons d t ih =>
        intro acc hacc word hword
        rw [wordsGo] at hword
        split at hword
        next =>
          split at hword
          · exact ih [] (by simp) word hword
          · rcases List.mem_cons.mp hword with rfl | hword
            · exact fun c hc => hacc c (List.mem_reverse.mp hc)
            · exact ih [] (by simp) word hword
        next hd =>
          refine ih (d :: acc) (fun c hc => ?_) word hword
          rcases List.mem_cons.mp hc with rfl | hc
          · exact Bool.eq_false_iff.mpr hd
          · exact hacc c hc
  exact hgo [] (by simp) word h

/-- A line has no newline in it. -/
theorem newline_not_mem_lines {line : List Char} (h : line ∈ lines t) : '\n' ∉ line := by
  have hgo : ∀ acc, '\n' ∉ acc → ∀ line ∈ linesGo acc t, '\n' ∉ line := by
    clear h
    induction t with
    | nil =>
        intro acc hacc line hline
        rw [linesGo] at hline
        split at hline
        · cases hline
        · rw [List.mem_singleton.mp hline, List.mem_reverse]
          exact hacc
    | cons d t ih =>
        intro acc hacc line hline
        rw [linesGo] at hline
        split at hline
        next =>
          rcases List.mem_cons.mp hline with rfl | hline
          · intro hmem
            exact hacc (List.mem_reverse.mp (mem_of_mem_stripCr hmem))
          · exact ih [] List.not_mem_nil line hline
        next hd =>
          refine ih (d :: acc) (fun hmem => ?_) line hline
          rcases List.mem_cons.mp hmem with heq | hmem
          · exact hd heq.symm
          · exact hacc hmem
  exact hgo [] List.not_mem_nil line h

theorem newline_not_mem_ofNat (n : Nat) : '\n' ∉ ofNat n := by
  intro h
  exact absurd (Nat.isDigit_of_mem_toDigits (by decide) (by decide) h) (by decide)

end

/-! ### Trimming and lines of an append -/

section

variable {a b t : List Char}

theorem dropEndWhile_append_of_last {p : Char → Bool} (ha : ∀ c, a.getLast? = some c → p c = false) (b : List Char) :
    dropEndWhile p (a ++ b) = a ++ dropEndWhile p b := by
  have hself : a.reverse.dropWhile p = a.reverse := by
    rw [List.getLast?_eq_head?_reverse] at ha
    cases hrev : a.reverse with
    | nil => rfl
    | cons c cs =>
        rw [hrev] at ha
        rw [List.dropWhile_cons_of_neg (by rw [ha c rfl]; simp)]
  unfold dropEndWhile
  rw [List.reverse_append, List.dropWhile_append]
  split
  next hnil => rw [hself, List.reverse_reverse, List.isEmpty_iff.mp hnil, List.reverse_nil, List.append_nil]
  next => rw [List.reverse_append, List.reverse_reverse]

/-- A text with no white space at its ends is trimmed after it only. -/
theorem trim_append (hfirst : ∀ c, a.head? = some c → isWhitespace c = false) (hne : a ≠ [])
    (hlast : ∀ c, a.getLast? = some c → isWhitespace c = false) (b : List Char) :
    trim (a ++ b) = a ++ trimEnd b := by
  cases a with
  | nil => exact absurd rfl hne
  | cons c a =>
      have hdrop : (c :: a ++ b).dropWhile isWhitespace = c :: a ++ b := by
        rw [List.cons_append, List.dropWhile_cons_of_neg (by rw [hfirst c rfl]; simp)]
      rw [trim, hdrop, dropEndWhile_append_of_last hlast]
      rfl

/-- A text without white space at its ends is not trimmed. -/
theorem trim_eq_self (hfirst : ∀ c, a.head? = some c → isWhitespace c = false)
    (hlast : ∀ c, a.getLast? = some c → isWhitespace c = false) : trim a = a := by
  by_cases hne : a = []
  · rw [hne]
    rfl
  · have htrim : trim (a ++ []) = a ++ trimEnd [] := trim_append hfirst hne hlast []
    rw [List.append_nil] at htrim
    rw [htrim]
    exact List.append_nil a

theorem trim_cons_of_whitespace {c : Char} (h : isWhitespace c = true) (t : List Char) : trim (c :: t) = trim t := by
  rw [trim, trim, List.dropWhile_cons_of_pos h]

/-- The end of a trimmed text. -/
theorem last_of_trimmed (h : trim t = t) {c : Char} (hc : t.getLast? = some c) : isWhitespace c = false := by
  rw [← h, trim, dropEndWhile, List.getLast?_reverse] at hc
  by_contra hws
  rw [Bool.not_eq_false] at hws
  have hnot := List.head?_dropWhile_not isWhitespace (t.dropWhile isWhitespace).reverse
  rw [hc] at hnot
  exact absurd hws (by simpa using hnot)

/-- Space in front of a trimmed text. -/
theorem trimEnd_space_append (h : trim t = t) : trim (trimEnd (' ' :: t)) = t := by
  cases hlast : t.getLast? with
  | none =>
      obtain rfl := List.getLast?_eq_none_iff.mp hlast
      decide
  | some c =>
      have hself : trimEnd (' ' :: t) = ' ' :: t := by
        have happend := @dropEndWhile_append_of_last (' ' :: t) isWhitespace (fun d hd => ?_) []
        · rw [List.append_nil] at happend
          rw [trimEnd, happend]
          exact List.append_nil _
        · rw [List.getLast?_cons, hlast, Option.getD_some] at hd
          rw [← Option.some.inj hd]
          exact last_of_trimmed h hlast
      rw [hself, trim_cons_of_whitespace (by decide), h]

theorem stripCr_append (ha : a.getLast? ≠ some '\r') (b : List Char) : stripCr (a ++ b) = a ++ stripCr b := by
  unfold stripCr
  cases b with
  | nil => simp [ha]
  | cons c b =>
      rw [List.getLast?_append_of_ne_nil _ (List.cons_ne_nil c b)]
      split
      · rw [List.dropLast_append_of_ne_nil (List.cons_ne_nil c b)]
      · rfl

theorem lines_cons {line : List Char} (h : '\n' ∉ line) (t : List Char) :
    lines (line ++ '\n' :: t) = stripCr line :: lines t := by
  have hgo : ∀ acc, linesGo acc (line ++ '\n' :: t) = stripCr (acc.reverse ++ line) :: linesGo [] t := by
    induction line with
    | nil =>
        intro acc
        rw [List.nil_append, linesGo, if_pos rfl, List.append_nil]
    | cons c line ih =>
        intro acc
        rw [List.mem_cons, not_or] at h
        rw [List.cons_append, linesGo, if_neg (Ne.symm h.1), ih h.2, List.reverse_cons, List.append_assoc]
        rfl
  exact hgo []

theorem splitOnce_append {sep : Char} (ha : sep ∉ a) (b : List Char) :
    splitOnce sep (a ++ sep :: b) = some (a, b) := by
  induction a with
  | nil => rw [List.nil_append, splitOnce, if_pos rfl]
  | cons c a ih =>
      rw [List.mem_cons, not_or] at ha
      rw [List.cons_append, splitOnce, if_neg (Ne.symm ha.1), ih ha.2]
      rfl

end

/-! ### Decimal numbers -/

theorem le_ofDigitChars (l : List Char) (acc : Nat) : acc ≤ Nat.ofDigitChars 10 l acc := by
  induction l generalizing acc with
  | nil => exact Nat.le_refl acc
  | cons c l ih =>
      rw [Nat.ofDigitChars_cons]
      exact Nat.le_trans (by omega) (ih _)

theorem parseDigits_of_digits {l : List Char} (h : ∀ c ∈ l, c.isDigit) {acc : Nat}
    (hlt : Nat.ofDigitChars 10 l acc < 2 ^ 64) : parseDigits acc l = some (Nat.ofDigitChars 10 l acc) := by
  induction l generalizing acc with
  | nil => rfl
  | cons c l ih =>
      rw [List.forall_mem_cons] at h
      have hdigit : 48 ≤ c.toNat ∧ c.toNat ≤ 57 := by simpa [Char.isDigit_iff_toNat] using h.1
      have hzero : '0'.toNat = 48 := rfl
      rw [Nat.ofDigitChars_cons, hzero, Nat.mul_comm] at hlt ⊢
      have hfits : acc * 10 + (c.toNat - 48) < 2 ^ 64 := Nat.lt_of_le_of_lt (le_ofDigitChars l _) hlt
      simp only [parseDigits, decimalDigit, if_pos hdigit, if_pos hfits]
      exact ih h.2 hlt

/-- A number is read back. -/
theorem parseU64_ofNat (n : UInt64) : parseU64 (ofNat n.toNat) = some n := by
  have hdigits : ∀ c ∈ ofNat n.toNat, c.isDigit := fun c hc => Nat.isDigit_of_mem_toDigits (by decide) (by decide) hc
  have hvalue : Nat.ofDigitChars 10 (ofNat n.toNat) 0 = n.toNat := Nat.ofDigitChars_ten_toDigits
  have hplus : (ofNat n.toNat).head? ≠ some '+' := by
    intro hhead
    exact absurd (hdigits '+' (List.mem_of_head? hhead)) (by decide)
  have hne : ofNat n.toNat ≠ [] := Nat.toDigits_ne_nil
  have hparse : parseDigits 0 (ofNat n.toNat) = some n.toNat := by
    rw [parseDigits_of_digits hdigits (by rw [hvalue]; exact n.toNat_lt), hvalue]
  simp only [parseU64, if_neg hplus, if_neg hne, hparse, Option.map_some, UInt64.ofNat_toNat]

/-! ### Words -/

theorem wordsGo_append {word : List Char} (hword : ∀ c ∈ word, isWhitespace c = false) (acc rest : List Char) :
    wordsGo acc (word ++ rest) = wordsGo (word.reverse ++ acc) rest := by
  induction word generalizing acc with
  | nil => rfl
  | cons c word ih =>
      rw [List.forall_mem_cons] at hword
      rw [List.cons_append, wordsGo, hword.1, if_neg (by decide), ih hword.2, List.reverse_cons, List.append_assoc]
      rfl

/-- A word and what comes after the space behind it. -/
theorem splitWhitespace_append {word : List Char} (hne : word ≠ []) (hword : ∀ c ∈ word, isWhitespace c = false)
    (rest : List Char) : splitWhitespace (word ++ ' ' :: rest) = word :: splitWhitespace rest := by
  have hrev : word.reverse ≠ [] := List.reverse_ne_nil_iff.mpr hne
  rw [splitWhitespace, wordsGo_append hword, List.append_nil, wordsGo]
  simp only [show isWhitespace ' ' = true from rfl, if_true, if_neg hrev, List.reverse_reverse]
  rfl

theorem splitWhitespace_word {word : List Char} (hne : word ≠ []) (hword : ∀ c ∈ word, isWhitespace c = false) :
    splitWhitespace word = [word] := by
  have hall := wordsGo_append hword [] []
  rw [List.append_nil, List.append_nil] at hall
  rw [splitWhitespace, hall, wordsGo, if_neg (List.reverse_ne_nil_iff.mpr hne), List.reverse_reverse]

/-! ### Printers known at one value -/

/-- A printer that prints one value as `text`, and gives every other value a text of its own, has an
inverse. -/
theorem printer_injective {α β : Type} [DecidableEq α] {a : α} {text : List β} {b : β} {f : α → Nat}
    (hf : Function.Injective f) (hother : ∀ n, List.replicate n b ≠ text) :
    Function.Injective fun x => if x = a then text else List.replicate (f x) b := by
  intro x y h
  dsimp only at h
  split at h
  next hx =>
    split at h
    next hy => rw [hx, hy]
    next => exact absurd h.symm (hother _)
  next =>
    split at h
    next => exact absurd h (hother _)
    next =>
      have hlen := congrArg List.length h
      rw [List.length_replicate, List.length_replicate] at hlen
      exact hf hlen

/-- The texts of the other values differ from one that begins otherwise. -/
theorem replicate_ne_cons {β : Type} {b c : β} (h : b ≠ c) (text : List β) (n : Nat) :
    List.replicate n b ≠ c :: text := by
  intro heq
  cases n with
  | zero => cases heq
  | succ n => exact h (List.cons.inj heq).1

end GuixP2p.Lib.Text
