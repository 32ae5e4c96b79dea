import Mathlib.Data.List.Sort

/-!
# GuixP2p.Lib.Ranking

**Choosing the best of a list.** The items of a list are ranked by a score, the highest first and
ties in the order of the list; the first few that satisfy a predicate are chosen. `Chosen` says what
such a choice is, whatever computes it, and `chosen_take` that ranking, filtering and cutting
computes one. Scores are compared by a total preorder.
-/

namespace GuixP2p.Lib.Ranking

variable {α S : Type} [Preorder S]

/-- `a` ranks before `b`: it scores at least as high, and comes first in the list at a tie. -/
def Before (score : α → S) (l : List α) (a b : α) : Prop :=
  score b ≤ score a ∧ (score a ≤ score b → [a, b].Sublist l)

/-- The choice of up to `n` of the items that satisfy `p`, the best first. -/
structure Chosen (score : α → S) (p : α → Bool) (n : Nat) (l chosen : List α) : Prop where
  nodup : chosen.Nodup
  mem : ∀ a ∈ chosen, a ∈ l ∧ p a = true
  length : chosen.length = min n (l.countP p)
  ordered : chosen.Pairwise (Before score l)
  best : ∀ a ∈ chosen, ∀ b ∈ l, p b = true → b ∉ chosen → Before score l a b

/-! ### The order of two items -/

theorem pair_sublist_or {l : List α} {a b : α} (ha : a ∈ l) (hb : b ∈ l) (hne : a ≠ b) :
    [a, b].Sublist l ∨ [b, a].Sublist l := by
  induction l with
  | nil => cases ha
  | cons c l ih =>
      rcases List.mem_cons.mp ha with rfl | ha'
      · have hb' : b ∈ l := (List.mem_cons.mp hb).resolve_left (Ne.symm hne)
        exact Or.inl ((List.singleton_sublist.mpr hb').cons_cons a)
      · rcases List.mem_cons.mp hb with rfl | hb'
        · exact Or.inr ((List.singleton_sublist.mpr ha').cons_cons b)
        · exact (ih ha' hb').imp (·.cons c) (·.cons c)

/-- Two items of a list without repetitions have one order. -/
theorem not_pair_sublist_swap {l : List α} {a b : α} (hnodup : l.Nodup) (hab : [a, b].Sublist l) :
    ¬ [b, a].Sublist l := by
  intro hba
  induction l with
  | nil => cases hab
  | cons c l ih =>
      rw [List.nodup_cons] at hnodup
      cases hab with
      | cons _ hab =>
          cases hba with
          | cons _ hba => exact ih hnodup.2 hab hba
          | cons_cons _ hba => exact hnodup.1 (hab.subset (by simp))
      | cons_cons _ hab =>
          cases hba with
          | cons _ hba => exact hnodup.1 (hba.subset (by simp))
          | cons_cons _ hba => exact hnodup.1 (List.singleton_sublist.mp hab)

theorem Before.of_sublist {score : α → S} {l l' : List α} {a b : α} (h : Before score l a b)
    (hsub : l.Sublist l') : Before score l' a b :=
  ⟨h.1, fun htie => (h.2 htie).trans hsub⟩

/-- A choice among the items that satisfy another predicate. -/
theorem Chosen.of_filter {score : α → S} {p q : α → Bool} {n : Nat} {l chosen : List α}
    (h : Chosen score p n (l.filter q) chosen) : Chosen score (fun a => q a && p a) n l chosen := by
  refine ⟨h.nodup, fun a ha => ?_, ?_, h.ordered.imp fun hab => hab.of_sublist List.filter_sublist, ?_⟩
  · have hmem := List.mem_filter.mp (h.mem a ha).1
    simp [hmem, (h.mem a ha).2]
  · rw [h.length, List.countP_filter]
    simp only [Bool.and_comm]
  · intro a ha b hb hp hleft
    rw [Bool.and_eq_true] at hp
    exact (h.best a ha b (List.mem_filter.mpr ⟨hb, hp.1⟩) hp.2 hleft).of_sublist List.filter_sublist

/-! ### Ranking -/

variable [DecidableLE S]

/-- The highest score first: a stable sort. -/
def ranked (score : α → S) (l : List α) : List α := l.insertionSort fun a b => score b ≤ score a

theorem perm_ranked (score : α → S) (l : List α) : (ranked score l).Perm l := List.perm_insertionSort _ l

theorem nodup_ranked {score : α → S} {l : List α} (hnodup : l.Nodup) : (ranked score l).Nodup :=
  (perm_ranked score l).nodup_iff.mpr hnodup

theorem mem_ranked {score : α → S} {l : List α} {a : α} : a ∈ ranked score l ↔ a ∈ l :=
  (perm_ranked score l).mem_iff

variable [Std.Total fun a b : S => a ≤ b]

theorem pairwise_ranked {score : α → S} {l : List α} (hnodup : l.Nodup) :
    (ranked score l).Pairwise (Before score l) := by
  have : Std.Total fun a b : α => score b ≤ score a := ⟨fun a b => Std.Total.total (score b) (score a)⟩
  have : IsTrans α fun a b => score b ≤ score a := ⟨fun _ _ _ hab hbc => le_trans hbc hab⟩
  rw [List.pairwise_iff_forall_sublist]
  intro a b hab
  refine ⟨List.pairwise_iff_forall_sublist.mp (List.pairwise_insertionSort _ l) hab, fun htie => ?_⟩
  have hne : a ≠ b := by
    intro h
    obtain rfl := h
    exact not_pair_sublist_swap (nodup_ranked hnodup) hab hab
  refine (pair_sublist_or (mem_ranked.mp (hab.subset (by simp))) (mem_ranked.mp (hab.subset (by simp)))
    hne).resolve_right fun hba => ?_
  -- a stable sort would have kept the other order
  exact not_pair_sublist_swap (nodup_ranked hnodup) hab (List.pair_sublist_insertionSort htie hba)

omit [Preorder S] [DecidableLE S] [Std.Total fun a b : S => a ≤ b] in
theorem mem_take_append_cons_iff {front back : List α} {a : α} {n : Nat} (hfront : a ∉ front) :
    a ∈ (front ++ a :: back).take n ↔ front.length < n := by
  constructor
  · intro hmem
    by_contra hle
    rw [List.take_append_of_le_length (Nat.not_lt.mp hle)] at hmem
    exact hfront (List.mem_of_mem_take hmem)
  · intro hlt
    obtain ⟨k, rfl⟩ : ∃ k, n = front.length + (k + 1) := ⟨n - front.length - 1, by omega⟩
    simp [List.take_append]

/-- Who is ranked in front of an item: by score, and at a tie by the order of the list. -/
theorem mem_front_ranked_iff {score : α → S} {pre post front back : List α} {a b : α}
    (hnodup : (pre ++ a :: post).Nodup) (hsplit : ranked score (pre ++ a :: post) = front ++ a :: back) :
    b ∈ front ↔ (b ∈ pre ∧ score a ≤ score b) ∨ (b ∈ post ∧ ¬ score b ≤ score a) := by
  have hranked := @nodup_ranked α S _ _ score _ hnodup
  have hbefore := @pairwise_ranked α S _ _ _ score _ hnodup
  have hperm := perm_ranked score (pre ++ a :: post)
  rw [hsplit] at hranked hbefore hperm
  rw [List.pairwise_append] at hbefore
  obtain ⟨-, hback, hfront⟩ := hbefore
  have hpre : b ∈ pre → [b, a].Sublist (pre ++ a :: post) := fun hb =>
    (List.singleton_sublist.mpr hb).append (List.singleton_sublist.mpr List.mem_cons_self)
  have hpost : b ∈ post → [a, b].Sublist (pre ++ a :: post) := fun hb =>
    ((List.singleton_sublist.mpr hb).cons_cons a).trans (List.sublist_append_right _ _)
  have hitems : b ∈ front ∨ b = a ∨ b ∈ back ↔ b ∈ pre ∨ b = a ∨ b ∈ post := by
    simpa using hperm.mem_iff (a := b)
  constructor
  · intro hb
    obtain ⟨hscore, htie⟩ := hfront b hb a List.mem_cons_self
    rcases hitems.mp (Or.inl hb) with hin | heq | hin
    · exact Or.inl ⟨hin, hscore⟩
    · exact (List.disjoint_of_nodup_append hranked hb (by simp [heq])).elim
    · exact Or.inr ⟨hin, fun hle => not_pair_sublist_swap hnodup (hpost hin) (htie hle)⟩
  · intro h
    rcases h with ⟨hin, hscore⟩ | ⟨hin, hscore⟩
    · rcases hitems.mpr (Or.inl hin) with hb | heq | hb
      · exact hb
      · exact (List.disjoint_of_nodup_append hnodup hin (by simp [heq])).elim
      · have htie := (List.pairwise_cons.mp hback).1 b hb
        exact absurd (htie.2 hscore) (not_pair_sublist_swap hnodup (hpre hin))
    · rcases hitems.mpr (Or.inr (Or.inr hin)) with hb | heq | hb
      · exact hb
      · exact absurd (heq ▸ hin) (List.nodup_cons.mp hnodup.of_append_right).1
      · exact absurd ((List.pairwise_cons.mp hback).1 b hb).1 hscore

/-- **Rank and cut.** An item is among the first `n` when fewer than `n` are ahead of it: the earlier
ones that score at least as high, and the later ones that score higher. -/
theorem mem_take_ranked_iff {score : α → S} {n : Nat} {pre post : List α} {a : α}
    (hnodup : (pre ++ a :: post).Nodup) :
    a ∈ (ranked score (pre ++ a :: post)).take n ↔
      (pre.filter fun b => score a ≤ score b).length + (post.filter fun b => ¬ score b ≤ score a).length < n := by
  have hmem : a ∈ ranked score (pre ++ a :: post) := mem_ranked.mpr (List.mem_append_right pre List.mem_cons_self)
  obtain ⟨front, back, hsplit⟩ := List.append_of_mem hmem
  have hranked : (front ++ a :: back).Nodup := hsplit ▸ nodup_ranked hnodup
  have hwho : ∀ b, b ∈ front ↔ b ∈ (pre.filter fun b => score a ≤ score b) ++
      post.filter fun b => ¬ score b ≤ score a := by
    intro b
    rw [mem_front_ranked_iff hnodup hsplit]
    simp only [List.mem_append, List.mem_filter, decide_eq_true_eq]
  have hlength : front.length = (pre.filter fun b => score a ≤ score b).length +
      (post.filter fun b => ¬ score b ≤ score a).length := by
    rw [← List.length_append]
    refine ((List.perm_ext_iff_of_nodup hranked.of_append_left ?_).mpr hwho).length_eq
    exact hnodup.sublist (List.filter_sublist.append (List.filter_sublist.trans (List.sublist_cons_self _ _)))
  have hne : a ∉ front := fun hin => List.disjoint_of_nodup_append hranked hin List.mem_cons_self
  rw [hsplit, mem_take_append_cons_iff hne, hlength]

/-- **Rank, filter and cut.** -/
theorem chosen_take {score : α → S} {p : α → Bool} {n : Nat} {l : List α} (hnodup : l.Nodup) :
    Chosen score p n l (((ranked score l).filter p).take n) := by
  have hpairwise := (@pairwise_ranked α S _ _ _ score l hnodup).filter p
  have hsub := List.take_sublist n ((ranked score l).filter p)
  refine ⟨((nodup_ranked hnodup).filter p).sublist hsub, fun a ha => ?_, ?_, hpairwise.sublist hsub, ?_⟩
  · have := List.mem_filter.mp (hsub.subset ha)
    exact ⟨mem_ranked.mp this.1, this.2⟩
  · rw [List.length_take, ← List.countP_eq_length_filter, (perm_ranked score l).countP_eq]
  · intro a ha b hb hp hleft
    rw [← List.take_append_drop n ((ranked score l).filter p), List.pairwise_append] at hpairwise
    refine hpairwise.2.2 a ha b ?_
    have hmem : b ∈ (ranked score l).filter p := List.mem_filter.mpr ⟨mem_ranked.mpr hb, hp⟩
    rw [← List.take_append_drop n ((ranked score l).filter p), List.mem_append] at hmem
    exact hmem.resolve_left hleft

end GuixP2p.Lib.Ranking
