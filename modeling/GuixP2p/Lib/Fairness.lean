import Mathlib.Order.WellFounded
import GuixP2p.Lib.Machine

/-!
# GuixP2p.Lib.Fairness

**Machines in a fair environment.** The environment supplies events without end. It is
fair when, as long as the machine goes on, some of its events *help*. If no event makes
a measure larger and every helpful one makes it smaller, the machine comes to an end
(`fair_run_ends`): nothing has to be known about when the helpful events come, nor how
far each of them gets.

The measure takes values in any well-founded order. A lexicographic pair serves where
progress on what matters may undo progress on what does not.
-/

namespace GuixP2p.Lib.Machine

variable {σ ε φ : Type*} {step : σ → ε → Except φ σ}

/-- The first `n` events of an endless supply. -/
def upTo (events : ℕ → ε) (n : ℕ) : List ε := (List.range n).map events

@[simp] theorem upTo_zero (events : ℕ → ε) : upTo events 0 = [] := rfl

theorem upTo_succ (events : ℕ → ε) (n : ℕ) : upTo events (n + 1) = upTo events n ++ [events n] := by
  simp [upTo, List.range_succ]

/-- One event more. -/
theorem run_upTo_succ {s t : σ} {events : ℕ → ε} {n : ℕ} (h : run step s (upTo events n) = .ok t) :
    run step s (upTo events (n + 1)) = step t (events n) := by
  rw [upTo_succ, run_append h]
  simp only [run]
  cases step t (events n) <;> rfl

/-- The machine never stops. -/
def RunsForever (step : σ → ε → Except φ σ) (s : σ) (events : ℕ → ε) : Prop :=
  ∀ n, ∃ t, run step s (upTo events n) = .ok t

/-- However many events have passed, a helpful one is still to come. -/
def HelpedAgain (step : σ → ε → Except φ σ) (helps : σ → ε → Prop) (s : σ) (events : ℕ → ε) : Prop :=
  ∀ n, ∃ m t, n ≤ m ∧ run step s (upTo events m) = .ok t ∧ helps t (events m)

/-- **Fairness rule.** If the allowed events keep an invariant and never make the measure
larger, and the helpful ones make it smaller, then a supply of allowed events that would
go on to help a machine that never stops does stop it, in a state of the invariant. -/
theorem fair_run_ends {α : Type*} [Preorder α] [WellFoundedLT α] {μ : σ → α} {P : σ → Prop}
    {A helps : σ → ε → Prop}
    (hinv : ∀ s e s', P s → A s e → step s e = .ok s' → P s')
    (hmono : ∀ s e s', P s → A s e → step s e = .ok s' → μ s' ≤ μ s)
    (hdec : ∀ s e s', P s → A s e → helps s e → step s e = .ok s' → μ s' < μ s)
    {s : σ} {events : ℕ → ε} (hs : P s)
    (hallowed : ∀ n t, run step s (upTo events n) = .ok t → A t (events n))
    (hfair : RunsForever step s events → HelpedAgain step helps s events) :
    ∃ n t f, run step s (upTo events n) = .ok t ∧ P t ∧ step t (events n) = .error f := by
  by_contra hnever
  have hnext : ∀ n t, run step s (upTo events n) = .ok t → P t → ∃ t', step t (events n) = .ok t' := by
    intro n t ht hinvt
    cases hstep : step t (events n) with
    | ok t' => exact ⟨t', rfl⟩
    | error f => exact absurd ⟨n, t, f, ht, hinvt, hstep⟩ hnever
  have hforever : ∀ n, ∃ t, run step s (upTo events n) = .ok t ∧ P t := by
    intro n
    induction n with
    | zero => exact ⟨s, rfl, hs⟩
    | succ n ih =>
        obtain ⟨t, ht, hinvt⟩ := ih
        obtain ⟨t', ht'⟩ := hnext n t ht hinvt
        exact ⟨t', (run_upTo_succ ht).trans ht', hinv t _ t' hinvt (hallowed n t ht) ht'⟩
  choose states hrun hstates using hforever
  have hstep : ∀ n, step (states n) (events n) = .ok (states (n + 1)) := fun n =>
    (run_upTo_succ (hrun n)).symm.trans (hrun (n + 1))
  have hle : ∀ n m, n ≤ m → μ (states m) ≤ μ (states n) := by
    intro n m hnm
    induction hnm with
    | refl => exact le_rfl
    | step _ ih => exact (hmono _ _ _ (hstates _) (hallowed _ _ (hrun _)) (hstep _)).trans ih
  have hhelped := hfair fun n => ⟨states n, hrun n⟩
  -- from any point on, the measure falls below its value there
  have hfalls : ∀ (a : α) (n : ℕ), μ (states n) = a → False := by
    intro a
    induction a using WellFoundedLT.induction with
    | ind a ih =>
        intro n hn
        obtain ⟨m, t, hnm, ht, hhelps⟩ := hhelped n
        obtain rfl : states m = t := Except.ok.inj ((hrun m).symm.trans ht)
        have hlt := hdec _ _ _ (hstates m) (hallowed m _ (hrun m)) hhelps (hstep m)
        exact ih _ (hn ▸ lt_of_lt_of_le hlt (hle n m hnm)) (m + 1) rfl
  exact hfalls _ 0 rfl

end GuixP2p.Lib.Machine
