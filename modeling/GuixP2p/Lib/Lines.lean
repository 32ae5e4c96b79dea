import GuixP2p.Lib.Text

/-!
# GuixP2p.Lib.Lines

**A stream of lines, and what is left of it when it is cut off.** A reader takes a stream
apart after each separator (`splitInclusive`); what comes after the last separator is handed
over like a line. A stream of whole lines is taken apart into these lines, and a beginning
of it into some of the lines and a part of the next (`splitInclusive_prefix`).

The second half is about text lines sent as UTF-8. The byte of a newline is part of no other
character, so bytes can be taken apart before they are decoded.
-/

namespace GuixP2p.Lib

section

variable {α : Type} [DecidableEq α] {sep : α}

/-- Cut after each separator. -/
def splitInclusive (sep : α) : List α → List (List α)
  | [] => []
  | a :: l =>
    if a = sep then [a] :: splitInclusive sep l
    else
      match splitInclusive sep l with
      | [] => [[a]]
      | line :: lines => (a :: line) :: lines

/-- Lines with their separators. -/
def joinLines (sep : α) (lines : List (List α)) : List α := lines.flatMap (· ++ [sep])

omit [DecidableEq α] in
@[simp] theorem joinLines_nil : joinLines sep [] = [] := rfl

omit [DecidableEq α] in
@[simp] theorem joinLines_cons (line : List α) (lines : List (List α)) :
    joinLines sep (line :: lines) = line ++ sep :: joinLines sep lines := by
  simp [joinLines]

omit [DecidableEq α] in
@[simp] theorem joinLines_append (lines lines' : List (List α)) :
    joinLines sep (lines ++ lines') = joinLines sep lines ++ joinLines sep lines' := by
  simp [joinLines]

/-- A line that is complete. -/
theorem splitInclusive_line {line : List α} (h : sep ∉ line) (rest : List α) :
    splitInclusive sep (line ++ sep :: rest) = (line ++ [sep]) :: splitInclusive sep rest := by
  induction line with
  | nil => simp [splitInclusive]
  | cons a line ih =>
      rw [List.mem_cons, not_or] at h
      rw [List.cons_append, splitInclusive, if_neg (Ne.symm h.1), ih h.2]
      rfl

/-- A last line without separator. -/
theorem splitInclusive_part {part : List α} (h : sep ∉ part) (hne : part ≠ []) :
    splitInclusive sep part = [part] := by
  induction part with
  | nil => exact absurd rfl hne
  | cons a part ih =>
      rw [List.mem_cons, not_or] at h
      cases part with
      | nil => simp [splitInclusive, Ne.symm h.1]
      | cons b part =>
          rw [splitInclusive, if_neg (Ne.symm h.1), ih h.2 (List.cons_ne_nil b part)]

/-- Each piece is a line or a last line without separator. -/
theorem line_of_mem_splitInclusive {piece l : List α} (h : piece ∈ splitInclusive sep l) :
    ∃ line, sep ∉ line ∧ (piece = line ∨ piece = line ++ [sep]) := by
  induction l generalizing piece with
  | nil => cases h
  | cons a l ih =>
      rw [splitInclusive] at h
      split at h
      next ha =>
        rcases List.mem_cons.mp h with rfl | h
        · exact ⟨[], List.not_mem_nil, Or.inr (by rw [ha]; rfl)⟩
        · exact ih h
      next ha =>
        cases hsplit : splitInclusive sep l with
        | nil =>
            rw [hsplit] at h
            exact ⟨[a], by simpa using Ne.symm ha, Or.inl (List.mem_singleton.mp h)⟩
        | cons line lines =>
            rw [hsplit] at h
            rcases List.mem_cons.mp h with rfl | h
            · obtain ⟨first, hfirst, hline⟩ := ih (hsplit ▸ List.mem_cons_self)
              refine ⟨a :: first, by simp [Ne.symm ha, hfirst], ?_⟩
              rcases hline with rfl | rfl
              · exact Or.inl rfl
              · exact Or.inr rfl
            · exact ih (hsplit ▸ List.mem_cons_of_mem line h)

theorem splitInclusive_append {lines : List (List α)} (h : ∀ line ∈ lines, sep ∉ line)
    (rest : List α) :
    splitInclusive sep (joinLines sep lines ++ rest) =
      lines.map (· ++ [sep]) ++ splitInclusive sep rest := by
  induction lines with
  | nil => rfl
  | cons line lines ih =>
      rw [List.forall_mem_cons] at h
      rw [joinLines_cons, List.append_assoc, List.cons_append, splitInclusive_line h.1, ih h.2]
      rfl

/-- A stream of lines is taken apart into them. -/
theorem splitInclusive_joinLines {lines : List (List α)} (h : ∀ line ∈ lines, sep ∉ line) :
    splitInclusive sep (joinLines sep lines) = lines.map (· ++ [sep]) := by
  have hall := splitInclusive_append h []
  rwa [List.append_nil, splitInclusive, List.append_nil] at hall

/-- **A stream that is cut off** is taken apart into the lines that arrived and, unless the
cut is between two lines, a part of the next one. -/
theorem splitInclusive_prefix {lines : List (List α)} (h : ∀ line ∈ lines, sep ∉ line)
    {cut : List α} (hcut : cut <+: joinLines sep lines) :
    ∃ arrived rest, lines = arrived ++ rest ∧
      (splitInclusive sep cut = arrived.map (· ++ [sep]) ∨
        ∃ line rest' part, rest = line :: rest' ∧ part <+: line ∧
          splitInclusive sep cut = arrived.map (· ++ [sep]) ++ [part]) := by
  induction lines generalizing cut with
  | nil =>
      obtain rfl := List.prefix_nil.mp hcut
      exact ⟨[], [], rfl, Or.inl rfl⟩
  | cons line lines ih =>
      rw [List.forall_mem_cons] at h
      rw [joinLines_cons] at hcut
      rcases List.prefix_or_prefix_of_prefix hcut (List.prefix_append line _) with hpart | hwhole
      · -- the cut is in this line, or right before its separator
        refine ⟨[], line :: lines, rfl, ?_⟩
        by_cases hnil : cut = []
        · exact Or.inl (by rw [hnil]; rfl)
        · refine Or.inr ⟨line, lines, cut, rfl, hpart, ?_⟩
          exact splitInclusive_part (fun hmem => h.1 (hpart.mem hmem)) hnil
      · obtain ⟨tail, rfl⟩ := hwhole
        rw [List.prefix_append_right_inj] at hcut
        cases tail with
        | nil =>
            refine ⟨[], line :: lines, rfl, ?_⟩
            rw [List.append_nil]
            by_cases hnil : line = []
            · exact Or.inl (by rw [hnil]; rfl)
            · exact Or.inr ⟨line, lines, line, rfl, List.prefix_refl _, splitInclusive_part h.1 hnil⟩
        | cons a tail =>
            obtain ⟨rfl, htail⟩ := List.cons_prefix_cons.mp hcut
            obtain ⟨arrived, rest, hsplit, hcase⟩ := ih h.2 htail
            refine ⟨line :: arrived, rest, by rw [hsplit]; rfl, ?_⟩
            rw [splitInclusive_line h.1]
            rcases hcase with hbetween | ⟨line', rest', part, hrest, hpart, hinside⟩
            · exact Or.inl (by rw [hbetween]; rfl)
            · exact Or.inr ⟨line', rest', part, hrest, hpart, by rw [hinside]; rfl⟩

end

/-! ### Text -/

namespace Text

/-- The text of a byte string, if it is UTF-8 (`String::from_utf8`). -/
def fromUtf8 (bytes : List UInt8) : Option (List Char) :=
  bytes.toByteArray.utf8Decode?.map Array.toList

@[simp] theorem utf8_nil : utf8 [] = [] := rfl

@[simp] theorem utf8_append (s t : List Char) : utf8 (s ++ t) = utf8 s ++ utf8 t := by
  simp [utf8]

theorem toByteArray_utf8 (t : List Char) : (utf8 t).toByteArray = t.utf8Encode := rfl

@[simp] theorem fromUtf8_utf8 (t : List Char) : fromUtf8 (utf8 t) = some t := by
  rw [fromUtf8, toByteArray_utf8, List.utf8Decode?_utf8Encode]
  rfl

/-- Only the bytes of a text decode to it. -/
theorem utf8_of_fromUtf8 {bytes : List UInt8} {t : List Char} (h : fromUtf8 bytes = some t) :
    utf8 t = bytes := by
  obtain ⟨chars, hchars, rfl⟩ := Option.map_eq_some_iff.mp h
  have hsome : bytes.toByteArray.utf8Decode?.isSome = true := by rw [hchars]; rfl
  have hencode := @ByteArray.utf8Encode_get_utf8Decode? _ hsome
  simp only [hchars, Option.get_some] at hencode
  exact List.toByteArray_inj.mp ((toByteArray_utf8 _).trans hencode)

/-- A beginning of the bytes that is text is a beginning of the text. -/
theorem prefix_of_utf8_prefix {s t : List Char} (h : utf8 s <+: utf8 t) : s <+: t := by
  obtain ⟨rest, hrest⟩ := h
  refine List.isPrefix_of_utf8Encode_append_eq_utf8Encode rest.toByteArray ?_
  rw [← toByteArray_utf8, ← toByteArray_utf8, ← hrest, List.toByteArray_append]

/-- The bytes of a character beyond ASCII have their highest bit set. -/
theorem newline_mem_utf8EncodeChar {c : Char} (h : 10 ∈ String.utf8EncodeChar c) : c = '\n' := by
  have hbyte : ∀ n, n < 256 → (10 : UInt8) = UInt8.ofNat n → n = 10 := by
    intro n hn heq
    have htoNat := congrArg UInt8.toNat heq
    simpa [Nat.mod_eq_of_lt hn] using htoNat.symm
  have hhigh : ∀ n, 128 ≤ n → n < 256 → (10 : UInt8) ≠ UInt8.ofNat n := by
    intro n hle hn heq
    have hten := hbyte n hn heq
    omega
  unfold String.utf8EncodeChar at h
  dsimp only at h
  split at h
  next hascii =>
    have hval := hbyte _ (by omega) (List.mem_singleton.mp h)
    exact Char.ext (UInt32.toNat_inj.mp hval)
  next =>
    exfalso
    split at h
    · simp only [List.mem_cons, List.not_mem_nil, or_false] at h
      rcases h with h | h
      · exact hhigh _ (by omega) (by omega) h
      · exact hhigh _ (by omega) (by omega) h
    · split at h
      · simp only [List.mem_cons, List.not_mem_nil, or_false] at h
        rcases h with h | h | h
        · exact hhigh _ (by omega) (by omega) h
        · exact hhigh _ (by omega) (by omega) h
        · exact hhigh _ (by omega) (by omega) h
      · simp only [List.mem_cons, List.not_mem_nil, or_false] at h
        rcases h with h | h | h | h
        · exact hhigh _ (by omega) (by omega) h
        · exact hhigh _ (by omega) (by omega) h
        · exact hhigh _ (by omega) (by omega) h
        · exact hhigh _ (by omega) (by omega) h

/-- A line without newline has no newline byte. -/
theorem newline_not_mem_utf8 {t : List Char} (h : '\n' ∉ t) : 10 ∉ utf8 t := by
  intro hmem
  obtain ⟨c, hc, hbyte⟩ := List.mem_flatMap.mp hmem
  exact h (newline_mem_utf8EncodeChar hbyte ▸ hc)

/-- Lines of text as they are sent. -/
def sendLines (lines : List (List Char)) : List UInt8 := joinLines 10 (lines.map utf8)

@[simp] theorem sendLines_nil : sendLines [] = [] := rfl

@[simp] theorem sendLines_append (lines lines' : List (List Char)) :
    sendLines (lines ++ lines') = sendLines lines ++ sendLines lines' := by
  simp [sendLines]

theorem sendLines_cons (line : List Char) (lines : List (List Char)) :
    sendLines (line :: lines) = utf8 (line ++ ['\n']) ++ sendLines lines := by
  have hnewline : utf8 ['\n'] = [10] := by decide
  simp [sendLines, hnewline]

end Text

end GuixP2p.Lib
