import Mathlib.Data.List.Basic

/-!
# GuixP2p.Lib.Action

**Actions on a shared state.** An action runs in a state, emits effects one after
another and either returns a value or stops with a fault. It always leaves a state: a
fault does not undo what was done before it.

`Triple` is the program logic. An assertion is about the state *and about everything
emitted so far*, so that it can say what came before what; the rules extend the trace as
the action does. `Keeps` is the special case of an invariant.
-/

namespace GuixP2p.Lib

/-- What running an action yields. -/
structure Outcome (σ ε φ α : Type) where
  trace : List ε
  state : σ
  result : Except φ α

def Action (σ ε φ α : Type) := σ → Outcome σ ε φ α

namespace Action

variable {σ σ' ε ε' φ α β : Type}

protected def pure (a : α) : Action σ ε φ α := fun s => ⟨[], s, .ok a⟩

/-- Run `m`, then `f` on its value in the state `m` left. -/
protected def bind (m : Action σ ε φ α) (f : α → Action σ ε φ β) : Action σ ε φ β := fun s =>
  let first := m s
  match first.result with
  | .ok a =>
    let second := f a first.state
    ⟨first.trace ++ second.trace, second.state, second.result⟩
  | .error e => ⟨first.trace, first.state, .error e⟩

instance : Monad (Action σ ε φ) where
  pure := Action.pure
  bind := Action.bind

/-- Emit several effects, in order. -/
def emitAll (es : List ε) : Action σ ε φ Unit := fun s => ⟨es, s, .ok ()⟩

def emit (e : ε) : Action σ ε φ Unit := emitAll [e]

def fault (f : φ) : Action σ ε φ α := fun s => ⟨[], s, .error f⟩

def get : Action σ ε φ σ := fun s => ⟨[], s, .ok s⟩

def set (s : σ) : Action σ ε φ Unit := fun _ => ⟨[], s, .ok ()⟩

/-- Go on with the value, or stop with the fault. -/
def ofExcept : Except φ α → Action σ ε φ α
  | .ok a => pure a
  | .error f => fault f

/-- Run an action on a part of the state; its effects become effects of the whole. -/
def focus (part : σ → σ') (update : σ → σ' → σ) (label : ε' → ε) (m : Action σ' ε' φ α) :
    Action σ ε φ α := fun s =>
  let inner := m (part s)
  ⟨inner.trace.map label, update s inner.state, inner.result⟩

variable {m : Action σ ε φ α} {f : α → Action σ ε φ β} {s : σ}

theorem bind_of_ok {a : α} (h : (m s).result = .ok a) :
    (m >>= f) s = ⟨(m s).trace ++ (f a (m s).state).trace, (f a (m s).state).state,
      (f a (m s).state).result⟩ := by
  show Action.bind m f s = _
  simp only [Action.bind, h]

theorem bind_of_error {e : φ} (h : (m s).result = .error e) :
    (m >>= f) s = ⟨(m s).trace, (m s).state, .error e⟩ := by
  show Action.bind m f s = _
  simp only [Action.bind, h]

theorem ofExcept_apply (r : Except φ α) (s : σ) : (ofExcept r : Action σ ε φ α) s = ⟨[], s, r⟩ := by
  cases r with
  | ok a => rfl
  | error e => rfl

/-- What a sequence emits, one of its parts emits. -/
theorem mem_trace_bind {e : ε} (h : e ∈ ((m >>= f) s).trace) :
    e ∈ (m s).trace ∨ ∃ a, (m s).result = .ok a ∧ e ∈ (f a (m s).state).trace := by
  cases hr : (m s).result with
  | error err =>
      rw [bind_of_error hr] at h
      exact Or.inl h
  | ok a =>
      rw [bind_of_ok hr] at h
      rcases List.mem_append.mp h with h | h
      · exact Or.inl h
      · exact Or.inr ⟨a, rfl, h⟩

/-- What the first action emits, the sequence emits. -/
theorem mem_trace_bind_left {e : ε} (h : e ∈ (m s).trace) : e ∈ ((m >>= f) s).trace := by
  cases hr : (m s).result with
  | error err => rwa [bind_of_error hr]
  | ok a =>
      rw [bind_of_ok hr]
      exact List.mem_append_left _ h

/-- Dropping the value changes nothing else. -/
theorem state_discard (m : Action σ ε φ α) (s : σ) :
    ((do let _ ← m; pure () : Action σ ε φ Unit) s).state = (m s).state := by
  show (Action.bind m _ s).state = _
  simp only [Action.bind]
  cases (m s).result with
  | error e => rfl
  | ok a => rfl

/-- What the first action leaves true and the second keeps, the sequence leaves true. -/
theorem state_bind {P : σ → Prop} (hm : P (m s).state) (hf : ∀ a t, P t → P (f a t).state) :
    P ((m >>= f) s).state := by
  cases hr : (m s).result with
  | error e =>
      rw [bind_of_error hr]
      exact hm
  | ok a =>
      rw [bind_of_ok hr]
      exact hf a _ hm

/-! ### Triples -/

/-- Run with `P` true of the state and of the trace so far, the action returns with `Q`
or faults with `F`. -/
structure Triple (P : σ → List ε → Prop) (Q : α → σ → List ε → Prop) (F : σ → List ε → Prop)
    (m : Action σ ε φ α) : Prop where
  returns : ∀ s τ a, P s τ → (m s).result = .ok a → Q a (m s).state (τ ++ (m s).trace)
  faults : ∀ s τ e, P s τ → (m s).result = .error e → F (m s).state (τ ++ (m s).trace)

namespace Triple

variable {P P' F F' : σ → List ε → Prop} {Q Q' : α → σ → List ε → Prop} {R : β → σ → List ε → Prop}

theorem pure {a : α} (h : ∀ s τ, P s τ → Q a s τ) :
    Triple P Q F (pure a : Action σ ε φ α) where
  returns s τ b hP hb := by
    obtain rfl : a = b := Except.ok.inj hb
    show Q a s (τ ++ [])
    rw [List.append_nil]
    exact h s τ hP
  faults _ _ _ _ hb := nomatch hb

theorem emitAll {es : List ε} {Q : σ → List ε → Prop} (h : ∀ s τ, P s τ → Q s (τ ++ es)) :
    Triple P (fun _ => Q) F (emitAll es : Action σ ε φ Unit) where
  returns s τ _ hP _ := h s τ hP
  faults _ _ _ _ hb := nomatch hb

theorem emit {e : ε} {Q : σ → List ε → Prop} (h : ∀ s τ, P s τ → Q s (τ ++ [e])) :
    Triple P (fun _ => Q) F (emit e : Action σ ε φ Unit) := emitAll h

theorem fault {e : φ} (h : ∀ s τ, P s τ → F s τ) : Triple P Q F (fault e : Action σ ε φ α) where
  returns _ _ _ _ hb := nomatch hb
  faults s τ _ hP _ := by
    show F s (τ ++ [])
    rw [List.append_nil]
    exact h s τ hP

theorem get : Triple P (fun a s τ => a = s ∧ P s τ) F (get : Action σ ε φ σ) where
  returns s τ a hP ha := by
    obtain rfl : s = a := Except.ok.inj ha
    show s = s ∧ P s (τ ++ [])
    rw [List.append_nil]
    exact ⟨rfl, hP⟩
  faults _ _ _ _ hb := nomatch hb

theorem set {t : σ} {Q : σ → List ε → Prop} (h : ∀ s τ, P s τ → Q t τ) :
    Triple P (fun _ => Q) F (set t : Action σ ε φ Unit) where
  returns s τ _ hP _ := by
    show Q t (τ ++ [])
    rw [List.append_nil]
    exact h s τ hP
  faults _ _ _ _ hb := nomatch hb

theorem ofExcept {r : Except φ α} (hok : ∀ a, r = .ok a → ∀ s τ, P s τ → Q a s τ)
    (herror : ∀ s τ, P s τ → F s τ) : Triple P Q F (ofExcept r : Action σ ε φ α) := by
  cases r with
  | ok a => exact Triple.pure (hok a rfl)
  | error e => exact Triple.fault herror

/-- **Sequence rule.** -/
theorem bind (hm : Triple P Q F m) (hf : ∀ a, Triple (Q a) R F (f a)) :
    Triple P R F (m >>= f) := by
  refine ⟨fun s τ b hP hb => ?_, fun s τ e hP he => ?_⟩
  · cases hr : (m s).result with
    | error e =>
        rw [bind_of_error hr] at hb
        cases hb
    | ok a =>
        rw [bind_of_ok hr] at hb ⊢
        have hnext := (hf a).returns _ _ b (hm.returns s τ a hP hr) hb
        rwa [List.append_assoc] at hnext
  · cases hr : (m s).result with
    | error e' =>
        rw [bind_of_error hr]
        exact hm.faults s τ e' hP hr
    | ok a =>
        rw [bind_of_ok hr] at he ⊢
        have hnext := (hf a).faults _ _ e (hm.returns s τ a hP hr) he
        rwa [List.append_assoc] at hnext

/-- **Consequence rule.** -/
theorem weaken (h : Triple P' Q' F' m) (hP : ∀ s τ, P s τ → P' s τ)
    (hQ : ∀ a s τ, Q' a s τ → Q a s τ) (hF : ∀ s τ, F' s τ → F s τ) : Triple P Q F m :=
  ⟨fun s τ a hs hr => hQ a _ _ (h.returns s τ a (hP s τ hs) hr),
    fun s τ e hs hr => hF _ _ (h.faults s τ e (hP s τ hs) hr)⟩

/-- Strengthen the precondition only. -/
theorem assume (h : Triple P' Q F m) (hP : ∀ s τ, P s τ → P' s τ) : Triple P Q F m :=
  h.weaken hP (fun _ _ _ hq => hq) fun _ _ hf => hf

/-- What the precondition implies, whatever the state, may be assumed. -/
theorem given {p : Prop} (hp : ∀ s τ, P s τ → p) (h : p → Triple P Q F m) : Triple P Q F m :=
  ⟨fun s τ a hs hr => (h (hp s τ hs)).returns s τ a hs hr,
    fun s τ e hs hr => (h (hp s τ hs)).faults s τ e hs hr⟩

/-- An assertion that holds however the action ends holds where it ends. -/
theorem ends {Q : σ → List ε → Prop} (h : Triple P (fun _ => Q) Q m) {s : σ} (hs : P s []) :
    Q (m s).state (m s).trace := by
  cases hr : (m s).result with
  | ok a => exact h.returns s [] a hs hr
  | error e => exact h.faults s [] e hs hr

/-- **Focus rule.** The part starts from where the whole is, with an empty trace. -/
theorem focus {part : σ → σ'} {update : σ → σ' → σ} {label : ε' → ε} {m : Action σ' ε' φ α}
    (h : ∀ s τ, P s τ → Triple (fun t ω => t = part s ∧ ω = [])
      (fun a t ω => Q a (update s t) (τ ++ ω.map label))
      (fun t ω => F (update s t) (τ ++ ω.map label)) m) :
    Triple P Q F (focus part update label m) :=
  ⟨fun s τ a hP ha => (h s τ hP).returns (part s) [] a ⟨rfl, rfl⟩ ha,
    fun s τ e hP he => (h s τ hP).faults (part s) [] e ⟨rfl, rfl⟩ he⟩

end Triple

/-! ### Invariants -/

/-- The action keeps `I`, wherever it ends. -/
def Keeps (I : σ → List ε → Prop) (m : Action σ ε φ α) : Prop := Triple I (fun _ => I) I m

namespace Keeps

variable {I : σ → List ε → Prop}

theorem pure (a : α) : Keeps I (pure a : Action σ ε φ α) := Triple.pure fun _ _ h => h

theorem emitAll {es : List ε} (h : ∀ s τ, I s τ → I s (τ ++ es)) :
    Keeps I (emitAll es : Action σ ε φ Unit) := Triple.emitAll h

theorem emit {e : ε} (h : ∀ s τ, I s τ → I s (τ ++ [e])) :
    Keeps I (emit e : Action σ ε φ Unit) := Triple.emit h

theorem fault (e : φ) : Keeps I (fault e : Action σ ε φ α) := Triple.fault fun _ _ h => h

theorem get : Keeps I (get : Action σ ε φ σ) :=
  Triple.get.weaken (fun _ _ h => h) (fun _ _ _ h => h.2) fun _ _ h => h

theorem ofExcept (r : Except φ α) : Keeps I (ofExcept r : Action σ ε φ α) :=
  Triple.ofExcept (fun _ _ _ _ h => h) fun _ _ h => h

theorem bind (hm : Keeps I m) (hf : ∀ a, Keeps I (f a)) : Keeps I (m >>= f) := Triple.bind hm hf

end Keeps

/-! ### Following -/

/-- Wherever `m` returns, `m'` does what `m` does; a fault of `m` may be missing in `m'`. -/
def Follows (m' m : Action σ ε φ α) : Prop := ∀ s a, (m s).result = .ok a → m' s = m s

namespace Follows

theorem refl (m : Action σ ε φ α) : Follows m m := fun _ _ _ => rfl

theorem bind {m' : Action σ ε φ α} {f' : α → Action σ ε φ β} (hm : Follows m' m) (hf : ∀ a, Follows (f' a) (f a)) :
    Follows (m' >>= f') (m >>= f) := by
  intro s b hb
  cases hr : (m s).result with
  | error e =>
      rw [bind_of_error hr] at hb
      cases hb
  | ok a =>
      have hfirst := hm s a hr
      rw [bind_of_ok hr] at hb
      rw [bind_of_ok hr, bind_of_ok (hfirst ▸ hr), hfirst, hf a _ b hb]

/-- A check whose answer is not used can be left out. -/
theorem ofExcept (r : Except φ α) : Follows (pure () : Action σ ε φ Unit) (do let _ ← ofExcept r; pure ()) := by
  intro s u hu
  cases r with
  | ok a => rfl
  | error e => cases hu

end Follows

end Action

end GuixP2p.Lib
