import GuixP2p.Lib.Table

/-!
# GuixP2p.Lib.Registry

**Tables that follow a stream of events by key.** An event concerns one key, or none, and changes what is
kept under it. What is kept under a key then depends on the events about that key alone
(`Registry.lookup_run`), and the rules on folds say what it is, field by field.
-/

namespace GuixP2p.Lib

/-! ### Fields of an accumulator -/

section

variable {α β γ : Type} {f : β → α → β}

/-- A field that adds up what comes in. -/
theorem foldl_part_add [AddCommMonoid γ] (part : β → γ) {x : α → γ} (hf : ∀ b a, part (f b a) = part b + x a)
    (l : List α) (b : β) : part (l.foldl f b) = part b + (l.map x).sum := by
  induction l generalizing b with
  | nil => rw [List.foldl_nil, List.map_nil, List.sum_nil, add_zero]
  | cons a l ih => rw [List.foldl_cons, ih, hf, List.map_cons, List.sum_cons, add_assoc]

/-- A field that keeps what came last. -/
theorem foldl_part_last (part : β → Option γ) {y : α → Option γ} (hf : ∀ b a, part (f b a) = (y a).or (part b))
    (l : List α) (b : β) : part (l.foldl f b) = (l.filterMap y).getLast?.or (part b) := by
  induction l generalizing b with
  | nil => rfl
  | cons a l ih =>
      rw [List.foldl_cons, ih, hf, List.filterMap_cons]
      cases hy : y a with
      | none => rfl
      | some c =>
          rw [Option.some_or, List.getLast?_cons]
          cases (l.filterMap y).getLast? <;> rfl

end

/-! ### Registries -/

structure Registry (ε κ ν : Type) where
  key : ε → Option κ
  fresh : κ → ν
  apply : ε → ν → ν

namespace Registry

variable {ε κ ν : Type} [DecidableEq κ] (r : Registry ε κ ν)

def step (t : Table κ ν) (e : ε) : Table κ ν :=
  match r.key e with
  | none => t
  | some k => t.upsert k (r.fresh k) (r.apply e)

def run (t : Table κ ν) (events : List ε) : Table κ ν := events.foldl r.step t

/-- The events about a key. -/
def about (k : κ) (events : List ε) : List ε := events.filter fun e => decide (r.key e = some k)

theorem lookup_step (t : Table κ ν) (e : ε) (k : κ) :
    (r.step t e).lookup k =
      if r.key e = some k then some (r.apply e ((t.lookup k).getD (r.fresh k))) else t.lookup k := by
  unfold step
  cases hkey : r.key e with
  | none => rw [if_neg (by simp)]
  | some k' =>
      by_cases hk : k' = k
      · subst hk
        rw [if_pos rfl]
        exact Table.lookup_upsert_self _ _ _ _
      · rw [if_neg (fun h => hk (Option.some.inj h))]
        exact Table.lookup_upsert_of_ne (Ne.symm hk) _ _ _

/-- **What is kept under a key is what its own events make of it.** -/
theorem lookup_run (t : Table κ ν) (events : List ε) (k : κ) :
    (r.run t events).lookup k =
      if r.about k events = [] then t.lookup k
      else some ((r.about k events).foldl (fun v e => r.apply e v) ((t.lookup k).getD (r.fresh k))) := by
  induction events generalizing t with
  | nil => rfl
  | cons e events ih =>
      have hrun : r.run t (e :: events) = r.run (r.step t e) events := rfl
      rw [hrun, ih, lookup_step]
      by_cases hkey : r.key e = some k
      · have habout : r.about k (e :: events) = e :: r.about k events :=
          List.filter_cons_of_pos (decide_eq_true hkey)
        rw [habout, if_pos hkey, if_neg (List.cons_ne_nil _ _), List.foldl_cons, Option.getD_some]
        split
        next hnone => rw [hnone, List.foldl_nil]
        next => rfl
      · have habout : r.about k (e :: events) = r.about k events :=
          List.filter_cons_of_neg (by simp [hkey])
        rw [habout, if_neg hkey]

/-- What the entries have together, if each adds up what its events bring. -/
theorem sum_values_step {g : ν → Nat} {x : ε → Nat} (hfresh : ∀ k, g (r.fresh k) = 0)
    (happly : ∀ e v, g (r.apply e v) = g v + x e) (hnone : ∀ e, r.key e = none → x e = 0) (t : Table κ ν) (e : ε) :
    ((r.step t e).values.map g).sum = (t.values.map g).sum + x e := by
  unfold step
  cases hkey : r.key e with
  | none => rw [hnone e hkey, Nat.add_zero]
  | some k =>
      dsimp only
      unfold Table.upsert
      split
      next hmem =>
        obtain ⟨v, hv⟩ := Table.mem_iff_exists_lookup.mp hmem
        have hsum := Table.sum_values_modify hv (r.apply e) g
        rw [happly] at hsum
        omega
      next hmem => rw [Table.sum_values_insert hmem, happly, hfresh, Nat.zero_add]

theorem sum_values_run {g : ν → Nat} {x : ε → Nat} (hfresh : ∀ k, g (r.fresh k) = 0)
    (happly : ∀ e v, g (r.apply e v) = g v + x e) (hnone : ∀ e, r.key e = none → x e = 0) (t : Table κ ν)
    (events : List ε) : ((r.run t events).values.map g).sum = (t.values.map g).sum + (events.map x).sum :=
  foldl_part_add (fun t : Table κ ν => (t.values.map g).sum) (r.sum_values_step hfresh happly hnone) events t

end Registry

end GuixP2p.Lib
