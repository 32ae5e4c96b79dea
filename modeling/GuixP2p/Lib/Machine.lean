import Mathlib.Order.Basic

/-!
# GuixP2p.Lib.Machine

**Event-driven machines.** A machine is a function `step : σ → ε → Except φ σ`:
it consumes one event and either moves to a next state or stops with a fault. A
*run* feeds a list of events and stops at the first fault.

The rules below turn what one step preserves into what a whole run preserves:

* `run_invariant` — an invariant of every step is an invariant of every run;
* `run_guarded_invariant` — the same for runs whose steps all meet a *guard*, a
  condition on the event and on the state it is consumed in (`Meets`);
* `forall_states_iff_meets` — when the guard is exactly what a step needs, the runs
  that keep the property are exactly those that meet the guard;
* `run_ok_iff` — when an event decides whether its step faults, a run goes through
  exactly when all its events are good.
-/

namespace GuixP2p.Lib.Machine

variable {σ ε φ : Type*} {step : σ → ε → Except φ σ}

/-- Feed the events one by one, stopping at the first fault. -/
def run (step : σ → ε → Except φ σ) : σ → List ε → Except φ σ
  | s, [] => .ok s
  | s, e :: es =>
    match step s e with
    | .ok s' => run step s' es
    | .error f => .error f

@[simp] theorem run_nil (s : σ) : run step s [] = .ok s := rfl

theorem run_cons_ok {s s' : σ} {e : ε} {es : List ε} (h : step s e = .ok s') :
    run step s (e :: es) = run step s' es := by
  simp only [run, h]

/-- Inverting a run that consumed an event: its first step succeeded. -/
theorem run_cons_inv {s t : σ} {e : ε} {es : List ε} (h : run step s (e :: es) = .ok t) :
    ∃ s', step s e = .ok s' ∧ run step s' es = .ok t := by
  simp only [run] at h
  cases hs : step s e with
  | error f => rw [hs] at h; cases h
  | ok s' => rw [hs] at h; exact ⟨s', rfl, h⟩

theorem run_append {s t : σ} {es es' : List ε} (h : run step s es = .ok t) :
    run step s (es ++ es') = run step t es' := by
  induction es generalizing s with
  | nil =>
      obtain rfl : s = t := by simpa using h
      rfl
  | cons e es ih =>
      obtain ⟨s', hs, hrun⟩ := run_cons_inv h
      rw [List.cons_append, run_cons_ok hs]
      exact ih hrun

/-- Inverting a run over a list that was put together: it went through its middle. -/
theorem run_append_inv {s t : σ} {es es' : List ε} (h : run step s (es ++ es') = .ok t) :
    ∃ u, run step s es = .ok u ∧ run step u es' = .ok t := by
  induction es generalizing s with
  | nil => exact ⟨s, rfl, h⟩
  | cons e es ih =>
      obtain ⟨s', hs, hrun⟩ := run_cons_inv h
      obtain ⟨u, hu, ht⟩ := ih hrun
      exact ⟨u, (run_cons_ok hs).trans hu, ht⟩

/-- What the steps of a run put out, in order; a fault ends the run. -/
def outputs {ω : Type} (step : σ → ε → Except φ σ) (out : σ → ε → List ω) : σ → List ε → List ω
  | _, [] => []
  | s, e :: es =>
    out s e ++
      match step s e with
      | .error _ => []
      | .ok s' => outputs step out s' es

theorem outputs_cons {ω : Type} {out : σ → ε → List ω} {s s' : σ} {e : ε} {es : List ε} (h : step s e = .ok s') :
    outputs step out s (e :: es) = out s e ++ outputs step out s' es := by
  rw [outputs, h]

/-- Every step a run takes from `s` meets the guard in the state it is taken in. -/
def Meets (step : σ → ε → Except φ σ) (guard : σ → ε → Prop) : σ → List ε → Prop
  | _, [] => True
  | s, e :: es => guard s e ∧ ∀ s', step s e = .ok s' → Meets step guard s' es

theorem meets_cons {guard : σ → ε → Prop} {s s' : σ} {e : ε} {es : List ε} (h : step s e = .ok s') :
    Meets step guard s (e :: es) ↔ guard s e ∧ Meets step guard s' es := by
  refine and_congr_right fun _ => ⟨fun hall => hall s' h, fun hmeets u hu => ?_⟩
  obtain rfl := Except.ok.inj (h.symm.trans hu)
  exact hmeets

theorem meets_and_iff {guard guard' : σ → ε → Prop} {s : σ} {es : List ε} :
    Meets step (fun s e => guard s e ∧ guard' s e) s es ↔ Meets step guard s es ∧ Meets step guard' s es := by
  induction es generalizing s with
  | nil => simp [Meets]
  | cons e es ih =>
      simp only [Meets, ih, forall_and]
      exact and_and_and_comm

/-- A guard that every event of the list meets in every state is met. -/
theorem meets_of_forall {guard : σ → ε → Prop} {es : List ε} (h : ∀ e ∈ es, ∀ s, guard s e) (s : σ) :
    Meets step guard s es := by
  induction es generalizing s with
  | nil => trivial
  | cons e es ih =>
      rw [List.forall_mem_cons] at h
      exact ⟨h.1 s, fun s' _ => ih h.2 s'⟩

/-- A guard that does not look at the state. -/
theorem meets_iff_forall {guard : ε → Prop} {s t : σ} {es : List ε} (h : run step s es = .ok t) :
    Meets step (fun _ => guard) s es ↔ ∀ e ∈ es, guard e := by
  refine ⟨fun hmeets => ?_, fun hall => meets_of_forall (fun e he _ => hall e he) s⟩
  induction es generalizing s with
  | nil => simp
  | cons e es ih =>
      obtain ⟨s', hse, hrun⟩ := run_cons_inv h
      rw [List.forall_mem_cons]
      exact ⟨hmeets.1, ih hrun (hmeets.2 s' hse)⟩

/-- The step after a prefix of a run meets the guard. -/
theorem Meets.guard_of_run {guard : σ → ε → Prop} {s t : σ} {e : ε} {es es' : List ε}
    (h : Meets step guard s (es ++ e :: es')) (hrun : run step s es = .ok t) : guard t e := by
  induction es generalizing s with
  | nil =>
      obtain rfl : s = t := by simpa using hrun
      exact h.1
  | cons e' es ih =>
      obtain ⟨s', hse, hrun'⟩ := run_cons_inv hrun
      exact ih (h.2 s' hse) hrun'

/-- **Invariant rule** for runs whose steps meet a guard. -/
theorem run_guarded_invariant {P : σ → Prop} {guard : σ → ε → Prop}
    (hstep : ∀ s e s', P s → guard s e → step s e = .ok s' → P s')
    {s t : σ} {es : List ε} (hs : P s) (hguard : Meets step guard s es)
    (h : run step s es = .ok t) : P t := by
  induction es generalizing s with
  | nil =>
      obtain rfl : s = t := by simpa using h
      exact hs
  | cons e es ih =>
      obtain ⟨s', hse, hrun⟩ := run_cons_inv h
      exact ih (hstep s e s' hs hguard.1 hse) (hguard.2 s' hse) hrun

/-- **Invariant rule.** What every step preserves, every run preserves. -/
theorem run_invariant {P : σ → Prop}
    (hstep : ∀ s e s', P s → step s e = .ok s' → P s')
    {s t : σ} {es : List ε} (hs : P s) (h : run step s es = .ok t) : P t := by
  induction es generalizing s with
  | nil =>
      obtain rfl : s = t := by simpa using h
      exact hs
  | cons e es ih =>
      obtain ⟨s', hse, hrun⟩ := run_cons_inv h
      exact ih (hstep s e s' hs hse) hrun

/-- A guard that keeps an invariant under which it implies another guard implies it
all along a run. -/
theorem meets_of_meets {P : σ → Prop} {guard guard' : σ → ε → Prop}
    (hstep : ∀ s e s', P s → guard s e → step s e = .ok s' → P s')
    (himp : ∀ s e, P s → guard s e → guard' s e) {s : σ} {es : List ε} (hs : P s)
    (h : Meets step guard s es) : Meets step guard' s es := by
  induction es generalizing s with
  | nil => trivial
  | cons e es ih =>
      exact ⟨himp s e hs h.1, fun s' hse => ih (hstep s e s' hs h.1 hse) (h.2 s' hse)⟩

/-- **Exact guard rule.** If, given a side invariant `J`, the guard is exactly what a
step needs to keep `P`, then `P` holds all along a run exactly when every step of
the run meets the guard. The events may be known to be good ones, `G`. -/
theorem forall_states_iff_meets_of_good {J P : σ → Prop} {guard : σ → ε → Prop} {G : ε → Prop}
    (hJ : ∀ s e s', J s → G e → step s e = .ok s' → J s')
    (hP : ∀ s e s', J s → P s → G e → step s e = .ok s' → (P s' ↔ guard s e))
    {s t : σ} {es : List ε} (hgood : ∀ e ∈ es, G e) (hs : J s) (hPs : P s)
    (h : run step s es = .ok t) :
    (∀ es' u, es' <+: es → run step s es' = .ok u → P u) ↔ Meets step guard s es := by
  induction es generalizing s with
  | nil =>
      refine iff_of_true (fun es' u hpre hu => ?_) trivial
      obtain rfl := List.prefix_nil.mp hpre
      obtain rfl : s = u := by simpa using hu
      exact hPs
  | cons e es ih =>
      rw [List.forall_mem_cons] at hgood
      obtain ⟨s', hse, hrun⟩ := run_cons_inv h
      have hiff := hP s e s' hs hPs hgood.1 hse
      have hs' := hJ s e s' hs hgood.1 hse
      constructor
      · intro hall
        have hPs' : P s' :=
          hall [e] s' (List.prefix_append [e] es) (by rw [run_cons_ok hse, run_nil])
        refine ⟨hiff.mp hPs', fun s'' hse' => ?_⟩
        obtain rfl : s' = s'' := Except.ok.inj (hse.symm.trans hse')
        refine (ih hgood.2 hs' hPs' hrun).mp fun es' u hpre hu => ?_
        exact hall (e :: es') u ((List.prefix_cons_inj e).mpr hpre) (by rw [run_cons_ok hse, hu])
      · intro hmeets es' u hpre hu
        cases es' with
        | nil =>
            obtain rfl : s = u := by simpa using hu
            exact hPs
        | cons e' es' =>
            obtain ⟨rfl, hpre'⟩ := List.cons_prefix_cons.mp hpre
            rw [run_cons_ok hse] at hu
            exact (ih hgood.2 hs' (hiff.mpr hmeets.1) hrun).mpr (hmeets.2 s' hse) es' u hpre' hu

/-- The exact guard rule for all steps. -/
theorem forall_states_iff_meets {J P : σ → Prop} {guard : σ → ε → Prop}
    (hJ : ∀ s e s', J s → step s e = .ok s' → J s')
    (hP : ∀ s e s', J s → P s → step s e = .ok s' → (P s' ↔ guard s e))
    {s t : σ} {es : List ε} (hs : J s) (hPs : P s) (h : run step s es = .ok t) :
    (∀ es' u, es' <+: es → run step s es' = .ok u → P u) ↔ Meets step guard s es :=
  forall_states_iff_meets_of_good (G := fun _ => True) (fun s e s' hs _ => hJ s e s' hs)
    (fun s e s' hs hPs _ => hP s e s' hs hPs) (fun _ _ => trivial) hs hPs h

/-- **No-fault rule.** If, given an invariant, whether a step faults depends on its
event alone, then a run goes through exactly when all its events are good. -/
theorem run_ok_iff {J : σ → Prop} {good : ε → Prop}
    (hJ : ∀ s e s', J s → step s e = .ok s' → J s')
    (hgood : ∀ s e, J s → ((∃ s', step s e = .ok s') ↔ good e))
    {s : σ} {es : List ε} (hs : J s) : (∃ t, run step s es = .ok t) ↔ ∀ e ∈ es, good e := by
  induction es generalizing s with
  | nil => exact iff_of_true ⟨s, rfl⟩ fun e he => absurd he List.not_mem_nil
  | cons e es ih =>
      rw [List.forall_mem_cons, ← hgood s e hs]
      constructor
      · intro h
        obtain ⟨t, ht⟩ := h
        obtain ⟨s', hse, hrun⟩ := run_cons_inv ht
        exact ⟨⟨s', hse⟩, (ih (hJ s e s' hs hse)).mp ⟨t, hrun⟩⟩
      · intro h
        obtain ⟨⟨s', hse⟩, hall⟩ := h
        rw [run_cons_ok hse]
        exact (ih (hJ s e s' hs hse)).mpr hall

end GuixP2p.Lib.Machine
