import Mathlib.Algebra.GroupWithZero.Nat
import Mathlib.Data.List.AList
import GuixP2p.Lib.Folds

/-!
# GuixP2p.Lib.Table

**Hash maps with an explicit iteration order.** A `Table κ ν` is a finite map,
stored as Mathlib's `AList`: a list of entries with pairwise distinct keys. The
order of the entries is the order in which the map is iterated. A hash map
promises nothing about that order, so a statement about a program that iterates
one is quantified over all tables, and `Equiv` relates two tables that hold the
same entries in different orders.

`AList` has lookup and insertion; this module adds the in-place update
(`modify`, Rust's `get_mut`; `mapValues`, its `iter_mut`; `upsert`, its `entry`), `retain`
(`filter`), collection from a sequence of pairs (`ofPairs`) and the values in iteration
order.
-/

namespace GuixP2p.Lib

/-- A finite map, iterated in the order of its entries. -/
abbrev Table (κ ν : Type) := AList (fun _ : κ => ν)

namespace Table

variable {κ ν : Type}

/-- The values, in iteration order. -/
def values (t : Table κ ν) : List ν := t.entries.map (·.2)

/-- The same map, possibly iterated in another order. -/
def Equiv (t t' : Table κ ν) : Prop := t.entries.Perm t'.entries

theorem Equiv.refl (t : Table κ ν) : t.Equiv t := List.Perm.refl _

variable [DecidableEq κ]

theorem Equiv.lookup_eq {t t' : Table κ ν} (h : t.Equiv t') (k : κ) :
    t.lookup k = t'.lookup k := AList.perm_lookup h

theorem mem_values {t : Table κ ν} {v : ν} :
    v ∈ t.values ↔ ∃ k, t.lookup k = some v := by
  simp only [values, List.mem_map]
  constructor
  · intro h
    obtain ⟨⟨k, w⟩, hmem, rfl⟩ := h
    exact ⟨k, AList.mem_lookup_iff.mpr hmem⟩
  · intro h
    obtain ⟨k, hk⟩ := h
    exact ⟨⟨k, v⟩, AList.mem_lookup_iff.mp hk, rfl⟩

theorem mem_iff_exists_lookup {t : Table κ ν} {k : κ} :
    k ∈ t ↔ ∃ v, t.lookup k = some v := by
  rw [← AList.lookup_isSome, Option.isSome_iff_exists]

/-- The entry with `f` applied to its value when it is the one at `k`. -/
def modifyEntry (k : κ) (f : ν → ν) (e : (_ : κ) × ν) : (_ : κ) × ν :=
  if e.1 = k then ⟨e.1, f e.2⟩ else e

@[simp] theorem modifyEntry_fst (k : κ) (f : ν → ν) (e : (_ : κ) × ν) :
    (modifyEntry k f e).1 = e.1 := by
  unfold modifyEntry
  split <;> rfl

theorem keys_map_modifyEntry (k : κ) (f : ν → ν) (l : List ((_ : κ) × ν)) :
    (l.map (modifyEntry k f)).keys = l.keys := by
  simp only [List.keys, List.map_map]
  exact List.map_congr_left fun e _ => modifyEntry_fst k f e

/-- Apply `f` to the value at `k`, if there is one. -/
def modify (k : κ) (f : ν → ν) (t : Table κ ν) : Table κ ν where
  entries := t.entries.map (modifyEntry k f)
  nodupKeys := by
    unfold List.NodupKeys
    rw [keys_map_modifyEntry]
    exact t.keys_nodup

@[simp] theorem keys_modify (k : κ) (f : ν → ν) (t : Table κ ν) :
    (t.modify k f).keys = t.keys :=
  keys_map_modifyEntry k f t.entries

@[simp] theorem mem_modify {k k' : κ} {f : ν → ν} {t : Table κ ν} :
    k' ∈ t.modify k f ↔ k' ∈ t := by
  rw [AList.mem_keys, AList.mem_keys, keys_modify]

theorem lookup_modify (k k' : κ) (f : ν → ν) (t : Table κ ν) :
    (t.modify k f).lookup k' =
      if k' = k then (t.lookup k').map f else t.lookup k' := by
  obtain ⟨l, hl⟩ := t
  simp only [AList.lookup, modify]
  clear hl
  induction l with
  | nil => simp
  | cons e l ih =>
      obtain ⟨a, v⟩ := e
      by_cases hak : a = k'
      · subst hak
        by_cases hk : a = k
        · subst hk; simp [modifyEntry]
        · simp [modifyEntry, hk]
      · have hne : k' ≠ (modifyEntry k f ⟨a, v⟩).1 := by
          rw [modifyEntry_fst]; exact Ne.symm hak
        rw [List.map_cons, List.dlookup_cons_ne _ _ hne,
          List.dlookup_cons_ne _ _ (Ne.symm hak), ih]

@[simp] theorem lookup_modify_self (k : κ) (f : ν → ν) (t : Table κ ν) :
    (t.modify k f).lookup k = (t.lookup k).map f := by
  rw [lookup_modify, if_pos rfl]

theorem lookup_modify_of_ne {k k' : κ} (h : k' ≠ k) (f : ν → ν) (t : Table κ ν) :
    (t.modify k f).lookup k' = t.lookup k' := by
  rw [lookup_modify, if_neg h]

/-- An update changes nothing exactly when it leaves the value it finds alone. -/
theorem modify_eq_self_iff {k : κ} {f : ν → ν} {t : Table κ ν} :
    t.modify k f = t ↔ ∀ v, t.lookup k = some v → f v = v := by
  constructor
  · intro h v hv
    have hlook := lookup_modify_self k f t
    rw [h, hv] at hlook
    exact (Option.some.inj hlook).symm
  · intro h
    refine AList.ext ((List.map_congr_left fun e he => ?_).trans (List.map_id _))
    by_cases hek : e.1 = k
    · rw [modifyEntry, if_pos hek, h e.2 (hek ▸ AList.mem_lookup_iff.mpr he)]
      rfl
    · rw [modifyEntry, if_neg hek, id]

/-- What an update adds to a sum over the values. -/
theorem sum_values_modify {k : κ} {v : ν} {t : Table κ ν} (h : t.lookup k = some v) (f : ν → ν) (g : ν → Nat) :
    ((t.modify k f).values.map g).sum + g v = (t.values.map g).sum + g (f v) := by
  obtain ⟨pre, post, hsplit⟩ := List.append_of_mem (AList.mem_lookup_iff.mp h)
  have hkeys := t.keys_nodup
  unfold AList.keys at hkeys
  rw [hsplit, List.keys_append, List.keys_cons, List.nodup_append, List.nodup_cons] at hkeys
  have hothers : ∀ l : List ((_ : κ) × ν), k ∉ l.keys → l.map (modifyEntry k f) = l := by
    intro l hl
    refine (List.map_congr_left fun e he => ?_).trans (List.map_id l)
    have hne : e.1 ≠ k := fun heq => hl (heq ▸ List.mem_map_of_mem he)
    rw [modifyEntry, if_neg hne, id]
  have hpre : k ∉ pre.keys := fun hmem => hkeys.2.2 k hmem k List.mem_cons_self rfl
  have hself : modifyEntry k f ⟨k, v⟩ = ⟨k, f v⟩ := if_pos rfl
  simp only [values, modify, hsplit, List.map_append, List.map_cons, hothers pre hpre,
    hothers post hkeys.2.1.1, hself, List.sum_append, List.sum_cons]
  omega

theorem sum_values_insert {k : κ} {t : Table κ ν} (h : k ∉ t) (v : ν) (g : ν → Nat) :
    ((values (t.insert k v)).map g).sum = (t.values.map g).sum + g v := by
  rw [values, AList.entries_insert_of_notMem h, List.map_cons, List.map_cons, List.sum_cons, Nat.add_comm]
  rfl

/-- Apply `f` to every value. -/
def mapValues (f : ν → ν) (t : Table κ ν) : Table κ ν where
  entries := t.entries.map fun e => ⟨e.1, f e.2⟩
  nodupKeys := by
    have hkeys : (t.entries.map fun e => (⟨e.1, f e.2⟩ : (_ : κ) × ν)).keys = t.keys := by
      simp [List.keys, AList.keys, Function.comp_def]
    unfold List.NodupKeys
    rw [hkeys]
    exact t.keys_nodup

omit [DecidableEq κ] in
@[simp] theorem mem_mapValues {k : κ} {f : ν → ν} {t : Table κ ν} :
    k ∈ t.mapValues f ↔ k ∈ t := by
  rw [AList.mem_keys, AList.mem_keys]
  simp [mapValues, List.keys, AList.keys, Function.comp_def]

theorem lookup_mapValues (k : κ) (f : ν → ν) (t : Table κ ν) :
    (t.mapValues f).lookup k = (t.lookup k).map f := by
  obtain ⟨l, hl⟩ := t
  simp only [AList.lookup, mapValues]
  clear hl
  induction l with
  | nil => rfl
  | cons e l ih =>
      obtain ⟨a, v⟩ := e
      by_cases hk : k = a
      · subst hk
        simp
      · rw [List.map_cons, List.dlookup_cons_ne _ _ hk, List.dlookup_cons_ne _ _ hk, ih]

/-! ### Entries and retention -/

/-- Apply `f` to the value at `k`, or to `d` when there is none: Rust's
`entry(k).or_insert(d)`. -/
def upsert (k : κ) (d : ν) (f : ν → ν) (t : Table κ ν) : Table κ ν :=
  if k ∈ t then t.modify k f else t.insert k (f d)

theorem lookup_upsert_self (k : κ) (d : ν) (f : ν → ν) (t : Table κ ν) :
    (t.upsert k d f).lookup k = some (f ((t.lookup k).getD d)) := by
  unfold upsert
  split
  next hmem =>
    obtain ⟨v, hv⟩ := mem_iff_exists_lookup.mp hmem
    simp [hv]
  next hmem =>
    rw [AList.lookup_insert, AList.lookup_eq_none.mpr hmem, Option.getD_none]

theorem lookup_upsert_of_ne {k k' : κ} (h : k' ≠ k) (d : ν) (f : ν → ν) (t : Table κ ν) :
    (t.upsert k d f).lookup k' = t.lookup k' := by
  unfold upsert
  split
  · exact lookup_modify_of_ne h f t
  · exact AList.lookup_insert_ne h

/-- The entries that satisfy `p`, in the same order: Rust's `retain`. -/
def filter (p : κ → ν → Bool) (t : Table κ ν) : Table κ ν where
  entries := t.entries.filter fun e => p e.1 e.2
  nodupKeys := t.nodupKeys.sublist List.filter_sublist

theorem lookup_filter_eq_some {p : κ → ν → Bool} {t : Table κ ν} {k : κ} {v : ν} :
    (t.filter p).lookup k = some v ↔ t.lookup k = some v ∧ p k v = true := by
  have hmem : (t.filter p).lookup k = some v ↔ ⟨k, v⟩ ∈ (t.filter p).entries :=
    AList.mem_lookup_iff
  rw [hmem]
  simp only [filter, List.mem_filter]
  exact and_congr_left fun _ => AList.mem_lookup_iff.symm

/-! ### Collecting pairs -/

/-- Collect a sequence of pairs; a repeated key keeps its last value. -/
def ofPairs (l : List (κ × ν)) : Table κ ν :=
  l.foldl (fun t e => t.insert e.1 e.2) ∅

theorem mem_foldl_insert {l : List (κ × ν)} {t : Table κ ν} {k : κ} :
    k ∈ l.foldl (fun t e => t.insert e.1 e.2) t ↔ k ∈ t ∨ k ∈ l.map Prod.fst := by
  have hstep : ∀ (t : Table κ ν) (e : κ × ν), k ∈ t.insert e.1 e.2 ↔ k ∈ t ∨ e.1 = k := by
    intro t e
    rw [AList.mem_insert, eq_comm, or_comm]
  rw [foldl_iff_or (P := fun t : Table κ ν => k ∈ t) hstep, List.mem_map]

@[simp] theorem mem_ofPairs {l : List (κ × ν)} {k : κ} :
    k ∈ ofPairs l ↔ k ∈ l.map Prod.fst := by
  rw [ofPairs, mem_foldl_insert]
  simp

theorem mem_of_lookup_foldl_insert {l : List (κ × ν)} {t : Table κ ν} {k : κ} {v : ν}
    (h : (l.foldl (fun t e => t.insert e.1 e.2) t).lookup k = some v) :
    t.lookup k = some v ∨ (k, v) ∈ l := by
  have hstep : ∀ (t : Table κ ν) (e : κ × ν), (t.insert e.1 e.2).lookup k = some v →
      t.lookup k = some v ∨ e = (k, v) := by
    intro t e hins
    by_cases hk : k = e.1
    · subst hk
      rw [AList.lookup_insert] at hins
      obtain rfl : e.2 = v := by simpa using hins
      exact Or.inr rfl
    · rw [AList.lookup_insert_ne hk] at hins
      exact Or.inl hins
  rcases of_foldl (fun t : Table κ ν => t.lookup k = some v) hstep h with hold | ⟨e, he, rfl⟩
  · exact Or.inl hold
  · exact Or.inr he

/-- A collected value comes from one of the pairs. -/
theorem mem_of_lookup_ofPairs {l : List (κ × ν)} {k : κ} {v : ν}
    (h : (ofPairs l).lookup k = some v) : (k, v) ∈ l := by
  rcases mem_of_lookup_foldl_insert h with he | hmem
  · simp at he
  · exact hmem

/-- Pairs with distinct keys are all kept. -/
theorem lookup_ofPairs_of_mem {l : List (κ × ν)} {k : κ} {v : ν} (hnodup : (l.map Prod.fst).Nodup)
    (h : (k, v) ∈ l) : (ofPairs l).lookup k = some v := by
  obtain ⟨w, hw⟩ := mem_iff_exists_lookup.mp (mem_ofPairs.mpr (List.mem_map_of_mem h))
  have hsame : (k, w) = (k, v) := List.inj_on_of_nodup_map hnodup (mem_of_lookup_ofPairs hw) h rfl
  rw [hw, (Prod.mk.inj hsame).2]

end Table

end GuixP2p.Lib
