import Mathlib.Data.List.Basic

/-!
# GuixP2p.Lib.Folds

**What a fold does, from what its steps do.** Each rule takes a fact about one step, for any
accumulator, and gives it for the fold; `P` is what the accumulator has or not, `Q` what an element
of the list adds to it.
-/

namespace GuixP2p.Lib

variable {α β : Type} {f : β → α → β} {P : β → Prop} {Q : α → Prop}

/-- Steps that each keep a property under a condition of their own. -/
theorem foldl_iff_and (hf : ∀ b a, P (f b a) ↔ P b ∧ Q a) (l : List α) (b : β) :
    P (l.foldl f b) ↔ P b ∧ ∀ a ∈ l, Q a := by
  induction l generalizing b with
  | nil => simp
  | cons a l ih => rw [List.foldl_cons, ih, hf, List.forall_mem_cons, and_assoc]

/-- Steps that keep a property and may bring it about. -/
theorem foldl_iff_or (hf : ∀ b a, P (f b a) ↔ P b ∨ Q a) (l : List α) (b : β) :
    P (l.foldl f b) ↔ P b ∨ ∃ a ∈ l, Q a := by
  induction l generalizing b with
  | nil => simp
  | cons a l ih => rw [List.foldl_cons, ih, hf, List.exists_mem_cons_iff, or_assoc]

/-- Steps that a property does not notice. -/
theorem foldl_iff_self (hf : ∀ b a, P (f b a) ↔ P b) (l : List α) (b : β) : P (l.foldl f b) ↔ P b := by
  induction l generalizing b with
  | nil => rfl
  | cons a l ih => rw [List.foldl_cons, ih, hf]

/-- Steps that leave a part of the accumulator alone. -/
theorem foldl_part_eq {γ : Type} (part : β → γ) (hf : ∀ b a, part (f b a) = part b) (l : List α) (b : β) :
    part (l.foldl f b) = part b := by
  induction l generalizing b with
  | nil => rfl
  | cons a l ih => rw [List.foldl_cons, ih, hf]

/-- What is true after a fold was true before, or comes from one of its steps. -/
theorem of_foldl (P : β → Prop) (hf : ∀ b a, P (f b a) → P b ∨ Q a) {l : List α} {b : β} (h : P (l.foldl f b)) :
    P b ∨ ∃ a ∈ l, Q a := by
  induction l generalizing b with
  | nil => exact Or.inl h
  | cons a l ih =>
      rcases ih h with h | ⟨a', ha', hq⟩
      · exact (hf b a h).imp_right fun hq => ⟨a, List.mem_cons_self, hq⟩
      · exact Or.inr ⟨a', List.mem_cons_of_mem _ ha', hq⟩

/-- Steps that bring nothing about. -/
theorem of_foldl_of_imp (P : β → Prop) (hf : ∀ b a, P (f b a) → P b) {l : List α} {b : β} (h : P (l.foldl f b)) :
    P b := by
  induction l generalizing b with
  | nil => exact h
  | cons a l ih => exact hf b a (ih h)

end GuixP2p.Lib
