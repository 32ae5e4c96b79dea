import Mathlib.Data.List.TakeWhile
import GuixP2p.Lib.Ranking
import GuixP2p.PeerStore.Persistence

/-!
# GuixP2p.PeerStore.Eviction

**Who has to go when an address is recorded.** `record_address` appends the new entry, prunes,
sorts by the time of the last sighting and cuts the list at its limit. The sort is stable and the
times are in seconds, so at a tie the entries that were there before come first, and an entry from
the future (the clock was set back) always does. What is cut off has the smallest times, but it may
be the entry that was just recorded: `recorded_kept_iff` says when.
-/

namespace GuixP2p

open GuixP2p.Lib MultiaddrLib

variable [MultiaddrLib]

/-! ### Retaining, in parts -/

/-- Only the set of the keys seen so far matters. -/
theorem retainEntries_seen_congr {world : PruneWorld} {seen seen' : List (Text × Text)}
    (h : ∀ key, key ∈ seen ↔ key ∈ seen') (entries : List PeerStoreEntry) :
    retainEntries world seen entries = retainEntries world seen' entries := by
  induction entries generalizing seen seen' with
  | nil => rfl
  | cons entry rest ih =>
      have hcons : ∀ key, key ∈ entry.key :: seen ↔ key ∈ entry.key :: seen' := by simp [h]
      simp only [retainEntries, h, ih h, ih hcons]

theorem retainEntries_append (world : PruneWorld) (seen : List (Text × Text)) (xs ys : List PeerStoreEntry) :
    retainEntries world seen (xs ++ ys) =
      retainEntries world seen xs ++
        retainEntries world ((retainEntries world seen xs).map PeerStoreEntry.key ++ seen) ys := by
  induction xs generalizing seen with
  | nil => rfl
  | cons entry rest ih =>
      rw [List.cons_append]
      simp only [retainEntries]
      split
      · split
        · exact ih seen
        · rw [ih, List.cons_append, List.map_cons]
          refine congrArg (fun l => entry :: (_ ++ l)) (retainEntries_seen_congr (fun key => ?_) ys)
          simp only [List.mem_append, List.mem_cons]
          constructor
          · rintro (h | h | h) <;> simp [h]
          · rintro ((h | h) | h) <;> simp [h]
      · exact ih seen

/-- A key that counts as seen makes no difference where it does not occur. -/
theorem retainEntries_cons_seen {world : PruneWorld} {key : Text × Text} {entries : List PeerStoreEntry}
    (h : ∀ e ∈ entries, e.key ≠ key) (seen : List (Text × Text)) :
    retainEntries world (key :: seen) entries = retainEntries world seen entries := by
  induction entries generalizing seen with
  | nil => rfl
  | cons entry rest ih =>
      rw [List.forall_mem_cons] at h
      have hseen : entry.key ∈ key :: seen ↔ entry.key ∈ seen := by simp [h.1]
      have hswap : ∀ k, k ∈ entry.key :: key :: seen ↔ k ∈ key :: entry.key :: seen := by
        intro k
        simp only [List.mem_cons]
        exact or_left_comm
      simp only [retainEntries, hseen, ih h.2, retainEntries_seen_congr hswap rest]

/-- Of every key that could be kept one entry is. -/
theorem key_mem_retainEntries {world : PruneWorld} {seen : List (Text × Text)} {entries : List PeerStoreEntry}
    {e : PeerStoreEntry} (he : e ∈ entries) (hkeep : e.keepable world = true) :
    e.key ∈ seen ∨ e.key ∈ (retainEntries world seen entries).map PeerStoreEntry.key := by
  induction entries generalizing seen with
  | nil => cases he
  | cons entry rest ih =>
      rw [retainEntries]
      rcases List.mem_cons.mp he with rfl | he
      · rw [if_pos hkeep]
        split
        next hseen => exact Or.inl hseen
        next => exact Or.inr (by simp)
      · split
        · split
          · exact ih he
          · rcases @ih (entry.key :: seen) he with hseen | hkept
            · rcases List.mem_cons.mp hseen with heq | hseen
              · exact Or.inr (by simp [heq])
              · exact Or.inl hseen
            · exact Or.inr (List.mem_cons_of_mem _ hkept)
        · exact ih he

namespace PeerStore

omit [MultiaddrLib] in
/-- Entering an address changes one entry, or appends one. -/
theorem touch_eq (key : Text × Text) (now : UInt64) (entries : List PeerStoreEntry) :
    touch key now entries =
      entries.takeWhile (fun e => decide (e.key ≠ key)) ++
        ⟨key.1, key.2, now⟩ :: (entries.dropWhile fun e => decide (e.key ≠ key)).tail := by
  induction entries with
  | nil => rfl
  | cons entry rest ih =>
      rw [touch]
      by_cases hkey : entry.key = key
      · subst hkey
        simp [PeerStoreEntry.key]
      · rw [if_neg hkey, ih]
        simp [hkey]

/-! ### The limit -/

/-- What is left for the limit when an address is recorded. -/
def candidates (key : Text × Text) (world : RecordWorld) (store : PeerStore) : List PeerStoreEntry :=
  retainEntries world.prune [] (touch key world.now store.entries)

/-- The entries under other keys that pruning keeps and that come before the one under this key:
those seen later, and of those seen at the same time the ones that stand before it. If there is no
entry under the key, all stand before it. -/
def ahead (key : Text × Text) (world : RecordWorld) (store : PeerStore) : List PeerStoreEntry :=
  (retainEntries world.prune [key] store.entries).filter fun e =>
    decide (world.now < e.lastSeen ∨
      (e.lastSeen = world.now ∧ e ∈ store.entries.takeWhile fun e => decide (e.key ≠ key)))

variable {store : PeerStore} {key : Text × Text} {world : RecordWorld}

/-- The entries under other keys lie before and after the recorded one as they did in the store. -/
theorem candidates_split (hkeep : PeerStoreEntry.keepable world.prune ⟨key.1, key.2, world.now⟩ = true) :
    ∃ before later, candidates key world store = before ++ ⟨key.1, key.2, world.now⟩ :: later ∧
      retainEntries world.prune [key] store.entries = before ++ later ∧
      (∀ e ∈ before, e ∈ store.entries.takeWhile fun e => decide (e.key ≠ key)) ∧
      ∀ e ∈ later, e ∉ store.entries.takeWhile fun e => decide (e.key ≠ key) := by
  have hentries := List.takeWhile_append_dropWhile (p := fun e : PeerStoreEntry => decide (e.key ≠ key))
    (l := store.entries)
  have hrest := List.head?_dropWhile_not (fun e : PeerStoreEntry => decide (e.key ≠ key)) store.entries
  have hpre : ∀ e ∈ store.entries.takeWhile (fun e => decide (e.key ≠ key)), e.key ≠ key := fun e he =>
    by simpa using List.mem_takeWhile_imp he
  rw [candidates, touch_eq]
  generalize store.entries.takeWhile (fun e => decide (e.key ≠ key)) = pre at *
  generalize store.entries.dropWhile (fun e => decide (e.key ≠ key)) = rest at *
  have hfresh : PeerStoreEntry.key ⟨key.1, key.2, world.now⟩ ∉ (retainEntries world.prune [] pre).map PeerStoreEntry.key ++ [] := by
    simp only [List.append_nil, List.mem_map, not_exists, not_and]
    exact fun e he => hpre e ((retainEntries_sublist world.prune [] pre).subset he)
  refine ⟨retainEntries world.prune [] pre,
    retainEntries world.prune ((retainEntries world.prune [] pre).map PeerStoreEntry.key ++ [key]) rest.tail,
    ?_, ?_, fun e he => (retainEntries_sublist world.prune [] pre).subset he, fun e he hmem => ?_⟩
  · -- the recorded entry is the first one under its key
    rw [retainEntries_append]
    refine congrArg _ ?_
    rw [retainEntries, if_pos hkeep, if_neg hfresh]
    refine congrArg _ (retainEntries_seen_congr (fun k => ?_) rest.tail)
    simp [PeerStoreEntry.key, or_comm]
  · -- the one it replaces counts as seen
    rw [← hentries, retainEntries_append, retainEntries_cons_seen hpre]
    refine congrArg _ ?_
    cases rest with
    | nil => rfl
    | cons old post =>
        have hold : old.key = key := by simpa using hrest
        simp [retainEntries, hold]
  · have hkept := mem_retainEntries he
    rcases @key_mem_retainEntries _ _ [] _ _ hmem hkept.1 with hseen | hseen
    · cases hseen
    · exact hkept.2 (List.mem_append_left _ hseen)

theorem nodup_candidates : (candidates key world store).Nodup :=
  (nodup_retainEntries world.prune [] _).of_map _

/-- As many entries are ahead of the recorded one as come before it in the sorted list. -/
theorem length_ahead {before later : List PeerStoreEntry}
    (hothers : retainEntries world.prune [key] store.entries = before ++ later)
    (hbefore : ∀ e ∈ before, e ∈ store.entries.takeWhile fun e => decide (e.key ≠ key))
    (hlater : ∀ e ∈ later, e ∉ store.entries.takeWhile fun e => decide (e.key ≠ key)) :
    (ahead key world store).length =
      (before.filter fun e => world.now.toNat ≤ e.lastSeen.toNat).length +
        (later.filter fun e => ¬ e.lastSeen.toNat ≤ world.now.toNat).length := by
  rw [ahead, hothers, List.filter_append, List.length_append]
  congr 2
  · refine List.filter_congr fun e he => decide_eq_decide.mpr ?_
    rw [and_iff_left (hbefore e he), ← UInt64.le_iff_toNat_le, UInt64.le_iff_lt_or_eq]
    exact or_congr_right eq_comm
  · refine List.filter_congr fun e he => decide_eq_decide.mpr ?_
    rw [or_iff_left fun h => hlater e he h.2, ← UInt64.le_iff_toNat_le, UInt64.not_le]

omit [MultiaddrLib] in
theorem insertionSort_eq_ranked (entries : List PeerStoreEntry) :
    entries.insertionSort NewerFirst = Ranking.ranked (fun e : PeerStoreEntry => e.lastSeen.toNat) entries := rfl

omit [MultiaddrLib] in
/-- The limit cuts off the smallest times. -/
theorem evicted_le_kept {entries : List PeerStoreEntry} {n : Nat} {evicted kept : PeerStoreEntry}
    (hmem : evicted ∈ entries) (hevicted : evicted ∉ (entries.insertionSort NewerFirst).take n)
    (hkept : kept ∈ (entries.insertionSort NewerFirst).take n) : evicted.lastSeen ≤ kept.lastSeen := by
  have hsorted := List.pairwise_insertionSort NewerFirst entries
  rw [← List.take_append_drop n (entries.insertionSort NewerFirst), List.pairwise_append] at hsorted
  refine hsorted.2.2 kept hkept evicted ?_
  have hin : evicted ∈ entries.insertionSort NewerFirst := (List.mem_insertionSort NewerFirst).mpr hmem
  rw [← List.take_append_drop n (entries.insertionSort NewerFirst), List.mem_append] at hin
  exact hin.resolve_left hevicted

variable [PeerStoreFormat] {peer : PeerId} {address addr : Multiaddr} {file : Option Text}

theorem entries_recordAddress (hclean : cleanPeerAddress world.localIps address = some addr) :
    (recordAddress peer address world store file).1.entries =
      ((candidates (peerIdText peer, multiaddrText addr) world store).insertionSort NewerFirst).take
        store.maxEntries := by
  rw [recordAddress, hclean]
  rfl

/-- **When the address just recorded is kept.** What is evicted never has been seen later than what
is kept; the recorded entry itself is kept exactly if pruning accepts it and fewer entries than the
limit are ahead of it. -/
theorem recorded_kept_iff (hclean : cleanPeerAddress world.localIps address = some addr) :
    (⟨peerIdText peer, multiaddrText addr, world.now⟩ ∈ (recordAddress peer address world store file).1.entries ∧
        ∀ evicted ∈ candidates (peerIdText peer, multiaddrText addr) world store,
          evicted ∉ (recordAddress peer address world store file).1.entries →
            ∀ kept ∈ (recordAddress peer address world store file).1.entries,
              evicted.lastSeen ≤ kept.lastSeen) ↔
      PeerStoreEntry.keepable world.prune ⟨peerIdText peer, multiaddrText addr, world.now⟩ = true ∧
        (ahead (peerIdText peer, multiaddrText addr) world store).length < store.maxEntries := by
  rw [entries_recordAddress hclean,
    and_iff_left fun evicted hmem hevicted kept hkept => evicted_le_kept hmem hevicted hkept]
  by_cases hkeep : PeerStoreEntry.keepable world.prune ⟨peerIdText peer, multiaddrText addr, world.now⟩ = true
  · obtain ⟨before, later, hcandidates, hothers, hbefore, hlater⟩ := @candidates_split _ store
      (peerIdText peer, multiaddrText addr) world hkeep
    have hnodup := @nodup_candidates _ store (peerIdText peer, multiaddrText addr) world
    rw [hcandidates] at hnodup ⊢
    rw [and_iff_right hkeep, length_ahead hothers hbefore hlater]
    rw [insertionSort_eq_ranked]
    exact Ranking.mem_take_ranked_iff hnodup
  · refine iff_of_false (fun hmem => hkeep ?_) fun h => hkeep h.1
    have hsorted := List.mem_of_mem_take hmem
    rw [List.mem_insertionSort] at hsorted
    exact (mem_retainEntries hsorted).1

/-! ### Two addresses in one second -/

/-- Recording at a time that an entry has already. -/
def sameSecond : RecordWorld := ⟨none, 1000, ⟨1000, none⟩, .written⟩

omit [MultiaddrLib] [PeerStoreFormat] in
/-- With room for both the second address is kept. -/
theorem recorded_kept_sample :
    let _ := sampleMultiaddrLib
    let _ := samplePeersFormat
    secondEntry 1000 ∈ (recordAddress emptyPeer secondAddress sameSecond ⟨2, [firstEntry 1000]⟩ none).1.entries := by
  intro _ _
  have hclean : cleanPeerAddress sameSecond.localIps secondAddress = some secondAddress := rfl
  exact ((recorded_kept_iff hclean).mpr ⟨by decide, by decide⟩).1

omit [MultiaddrLib] [PeerStoreFormat] in
/-- With room for one it is the second address that goes. -/
theorem recorded_is_evicted :
    let _ := sampleMultiaddrLib
    let _ := samplePeersFormat
    cleanPeerAddress sameSecond.localIps secondAddress = some secondAddress ∧
      (recordAddress emptyPeer secondAddress sameSecond ⟨1, [firstEntry 1000]⟩ none).1.entries = [firstEntry 1000] ∧
      secondEntry 1000 ∉ [firstEntry 1000] := by
  intro _ _
  have hclean : cleanPeerAddress sameSecond.localIps secondAddress = some secondAddress := rfl
  refine ⟨hclean, ?_, by decide⟩
  rw [entries_recordAddress hclean]
  decide

end PeerStore

end GuixP2p
