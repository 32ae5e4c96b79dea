import Mathlib.Data.List.Basic
import Mathlib.Data.List.Nodup
import Mathlib.Data.List.Perm.Basic

/-!
# GuixP2p.Lib.Search

**Searching a list**: the first element with a property, and the order of a list whose elements
are tried by preference.
-/

namespace GuixP2p.Lib

variable {α κ : Type}

/-! ### The first element -/

/-- `a` is the first element of `l` with `p`; `pre` comes before it. -/
structure First (p : α → Prop) (l pre : List α) (a : α) (post : List α) : Prop where
  split : l = pre ++ a :: post
  passed : ∀ x ∈ pre, ¬ p x
  holds : p a

namespace First

variable {p : α → Prop} {l pre pre' post post' : List α} {a a' : α}

open Classical in
theorem find? (h : First p l pre a post) : l.find? (fun x => decide (p x)) = some a := by
  refine List.find?_eq_some_iff_append.mpr ⟨decide_eq_true h.holds, pre, post, h.split, fun x hx => ?_⟩
  simpa using h.passed x hx

theorem unique (h : First p l pre a post) (h' : First p l pre' a' post') : a = a' := by
  have hfind := h.find?
  rw [h'.find?] at hfind
  exact (Option.some.inj hfind).symm

theorem mem (h : First p l pre a post) : a ∈ l := by
  rw [h.split]
  exact List.mem_append_right _ List.mem_cons_self

/-- A search ends with an element or at the end of the list. -/
theorem exists_or_forall_not (p : α → Prop) (l : List α) :
    (∃ pre a post, First p l pre a post) ∨ ∀ x ∈ l, ¬ p x := by
  classical
  cases hfind : l.find? fun x => decide (p x) with
  | none =>
      refine Or.inr fun x hx => ?_
      have hnot := List.find?_eq_none.mp hfind x hx
      simpa using hnot
  | some a =>
      obtain ⟨ha, pre, post, hsplit, hpassed⟩ := List.find?_eq_some_iff_append.mp hfind
      refine Or.inl ⟨pre, a, post, hsplit, fun x hx => ?_, of_decide_eq_true ha⟩
      simpa using hpassed x hx

end First

/-! ### Preference -/

section

variable [DecidableEq κ] (key : α → κ)

/-- The elements with the first key, then those with the second, and so on. -/
def byPreference (prefs : List κ) (l : List α) : List α :=
  prefs.flatMap fun c => l.filter fun a => decide (key a = c)

theorem mem_byPreference {prefs : List κ} {l : List α} {a : α} :
    a ∈ byPreference key prefs l ↔ a ∈ l ∧ key a ∈ prefs := by
  simp only [byPreference, List.mem_flatMap, List.mem_filter, decide_eq_true_eq]
  constructor
  · intro h
    obtain ⟨c, hc, ha, rfl⟩ := h
    exact ⟨ha, hc⟩
  · intro h
    obtain ⟨ha, hc⟩ := h
    exact ⟨key a, hc, ha, rfl⟩

theorem byPreference_cons (c : κ) (prefs : List κ) (l : List α) :
    byPreference key (c :: prefs) l = (l.filter fun a => decide (key a = c)) ++ byPreference key prefs l :=
  List.flatMap_cons

/-- Elements of one key keep their order. -/
theorem filter_byPreference {prefs : List κ} (hnodup : prefs.Nodup) {c : κ} (hc : c ∈ prefs) (l : List α) :
    ((byPreference key prefs l).filter fun a => decide (key a = c)) = l.filter fun a => decide (key a = c) := by
  induction prefs with
  | nil => cases hc
  | cons d prefs ih =>
      rw [List.nodup_cons] at hnodup
      rw [byPreference_cons, List.filter_append]
      by_cases hcd : c = d
      · subst hcd
        have hrest : ((byPreference key prefs l).filter fun a => decide (key a = c)) = [] := by
          rw [List.filter_eq_nil_iff]
          intro a ha hkey
          rw [mem_byPreference] at ha
          rw [← of_decide_eq_true hkey] at hnodup
          exact hnodup.1 ha.2
        rw [hrest, List.append_nil, List.filter_filter]
        simp
      · have hfirst : ((l.filter fun a => decide (key a = d)).filter fun a => decide (key a = c)) = [] := by
          rw [List.filter_eq_nil_iff]
          intro a ha hkey
          rw [List.mem_filter] at ha
          exact hcd ((of_decide_eq_true hkey).symm.trans (of_decide_eq_true ha.2))
        rw [hfirst, List.nil_append]
        exact ih hnodup.2 ((List.mem_cons.mp hc).resolve_left hcd)

/-- Nothing is lost and nothing comes twice. -/
theorem byPreference_perm {prefs : List κ} (hnodup : prefs.Nodup) {l : List α} (hkeys : ∀ a ∈ l, key a ∈ prefs) :
    (byPreference key prefs l).Perm l := by
  induction prefs generalizing l with
  | nil =>
      cases l with
      | nil => exact List.Perm.refl _
      | cons a l => cases hkeys a List.mem_cons_self
  | cons c prefs ih =>
      rw [List.nodup_cons] at hnodup
      have hothers : byPreference key prefs (l.filter fun a => !decide (key a = c)) = byPreference key prefs l := by
        unfold byPreference
        refine List.flatMap_congr fun d hd => ?_
        rw [List.filter_filter]
        refine List.filter_congr fun a _ => ?_
        by_cases had : key a = d
        · have hne : d ≠ c := fun hdc => hnodup.1 (by rwa [← hdc])
          simp [had, hne]
        · simp [had]
      have hperm := @ih hnodup.2 (l.filter fun a => !decide (key a = c)) fun a ha => by
        rw [List.mem_filter, Bool.not_eq_true', decide_eq_false_iff_not] at ha
        exact (List.mem_cons.mp (hkeys a ha.1)).resolve_left ha.2
      rw [byPreference_cons, ← hothers]
      exact (hperm.append_left _).trans (List.filter_append_perm _ l)

/-- More preferred elements come first. -/
theorem pairwise_byPreference {prefs : List κ} (hnodup : prefs.Nodup) (l : List α) :
    (byPreference key prefs l).Pairwise fun a b => prefs.idxOf (key a) ≤ prefs.idxOf (key b) := by
  have hprefs : prefs.Pairwise fun c d => prefs.idxOf c ≤ prefs.idxOf d := by
    rw [List.pairwise_iff_getElem]
    intro i j hi hj hij
    rw [hnodup.idxOf_getElem i hi, hnodup.idxOf_getElem j hj]
    exact Nat.le_of_lt hij
  rw [byPreference, List.pairwise_flatMap]
  constructor
  · intro c _
    refine List.Pairwise.imp_of_mem (R := fun _ _ => True) ?_ (List.pairwise_of_forall fun _ _ => trivial)
    intro a b ha hb _
    rw [List.mem_filter, decide_eq_true_eq] at ha hb
    exact Nat.le_of_eq (congrArg (List.idxOf · prefs) (ha.2.trans hb.2.symm))
  · refine hprefs.imp fun {c d} hcd a ha b hb => ?_
    rw [List.mem_filter, decide_eq_true_eq] at ha hb
    rwa [ha.2, hb.2]

end

end GuixP2p.Lib
