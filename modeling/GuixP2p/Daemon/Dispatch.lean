import GuixP2p.Daemon.FetchMoves

/-!
# GuixP2p.Daemon.Dispatch

**Dispatching is work-conserving.** `dispatch_block_requests` goes once over all blocks and gives
each pending one to the least-loaded peer that can take it. Slots only fill up while it runs, so a
peer that could not take a block when the block was looked at cannot take it at the end either:
no pending block is left that some peer with a free slot advertises.

The invariant `DispatchedUpTo` is about the blocks that have been looked at so far.
-/

namespace GuixP2p

open GuixP2p.Lib

/-- The number that `dispatch_block_requests` returns. -/
def dispatched (batches : Table PeerId (List UInt32)) : Nat := (batches.values.map List.length).sum

/-! ### Choosing a peer -/

/-- The peer can be asked for the block. -/
structure Eligible (peerStates : Table PeerId PeerFetchState) (maxInFlight : Nat) (idx : UInt32)
    (peer : PeerId) (st : PeerFetchState) : Prop where
  lookup : peerStates.lookup peer = some st
  free : st.inFlight.card < maxInFlight
  advertises : idx ∈ st.available

/-- No peer that can be asked for the block has fewer blocks in flight, or as many and fewer
failures. -/
def LeastLoaded (peerStates : Table PeerId PeerFetchState) (maxInFlight : Nat) (idx : UInt32)
    (peer : PeerId) : Prop :=
  ∃ st, Eligible peerStates maxInFlight idx peer st ∧
    ∀ q st', Eligible peerStates maxInFlight idx q st' →
      toLex (st.inFlight.card, st.failures) ≤ toLex (st'.inFlight.card, st'.failures)

section

variable {peerStates : Table PeerId PeerFetchState} {maxInFlight : Nat} {idx : UInt32}

theorem mem_eligible {e : (_ : PeerId) × PeerFetchState} :
    (e ∈ peerStates.entries.filter fun e =>
      decide (e.2.inFlight.card < maxInFlight) && decide (idx ∈ e.2.available)) ↔
      Eligible peerStates maxInFlight idx e.1 e.2 := by
  rw [List.mem_filter, Bool.and_eq_true, decide_eq_true_eq, decide_eq_true_eq]
  constructor
  · intro h
    exact ⟨AList.mem_lookup_iff.mpr h.1, h.2.1, h.2.2⟩
  · intro h
    exact ⟨AList.mem_lookup_iff.mp h.lookup, h.free, h.advertises⟩

/-- The chosen peer is a least-loaded one, whatever the iteration order. -/
theorem leastLoaded_of_choosePeer {peer : PeerId} (h : choosePeer peerStates maxInFlight idx = some peer) :
    LeastLoaded peerStates maxInFlight idx peer := by
  unfold choosePeer at h
  obtain ⟨e, he, rfl⟩ := Option.map_eq_some_iff.mp h
  refine ⟨e.2, mem_eligible.mp (List.argmin_mem he), fun q st' hq => ?_⟩
  have hle := @List.le_of_mem_argmin _ _ _ (fun e : (_ : PeerId) × PeerFetchState =>
    toLex (e.2.inFlight.card, e.2.failures)) _ ⟨q, st'⟩ e (mem_eligible.mpr hq) he
  exact hle

theorem not_eligible_of_choosePeer (h : choosePeer peerStates maxInFlight idx = none) (peer : PeerId)
    (st : PeerFetchState) : ¬ Eligible peerStates maxInFlight idx peer st := by
  intro heligible
  unfold choosePeer at h
  have hnil := List.argmin_eq_none.mp (Option.map_eq_none_iff.mp h)
  have hmem := (@mem_eligible _ _ _ ⟨peer, st⟩).mpr heligible
  rw [hnil] at hmem
  exact List.not_mem_nil hmem

/-- Taking a slot makes no peer eligible. -/
theorem Eligible.of_assign {s : Scheduler} {j : Nat} {p q : PeerId} {now : Instant} {st : PeerFetchState}
    (h : Eligible (s.assign j p now).peerStates maxInFlight idx q st) :
    ∃ st', Eligible s.peerStates maxInFlight idx q st' := by
  have hlookup := h.lookup
  rw [Scheduler.assign, Table.lookup_modify] at hlookup
  split at hlookup
  · obtain ⟨st', hst', rfl⟩ := Option.map_eq_some_iff.mp hlookup
    exact ⟨st', hst', Nat.lt_of_le_of_lt (Finset.card_le_card (Finset.subset_insert _ _)) h.free, h.advertises⟩
  · exact ⟨st, hlookup, h.free, h.advertises⟩

end

/-! ### Batches -/

section

variable (batches : Table PeerId (List UInt32)) (peer : PeerId) (idx : UInt32)

theorem lookup_pushBatch (p : PeerId) :
    (pushBatch batches peer idx).lookup p =
      if p = peer then some ((batches.lookup peer).getD [] ++ [idx]) else batches.lookup p := by
  unfold pushBatch
  cases hb : batches.lookup peer with
  | none =>
      by_cases hp : p = peer
      · rw [if_pos hp, hp, AList.lookup_insert]
        rfl
      · rw [if_neg hp, AList.lookup_insert_ne hp]
  | some l =>
      dsimp only
      rw [Table.lookup_modify]
      by_cases hp : p = peer
      · rw [if_pos hp, if_pos hp, hp, hb]
        rfl
      · rw [if_neg hp, if_neg hp]

theorem dispatched_pushBatch : dispatched (pushBatch batches peer idx) = dispatched batches + 1 := by
  unfold dispatched pushBatch
  cases hb : batches.lookup peer with
  | none => exact Table.sum_values_insert (AList.lookup_eq_none.mp hb) _ _
  | some l =>
      have hsum := Table.sum_values_modify hb (fun l => l ++ [idx]) List.length
      rw [List.length_append, List.length_singleton] at hsum
      dsimp only
      omega

theorem mem_pushBatch {p : PeerId} {k : UInt32} :
    (∃ l, (pushBatch batches peer idx).lookup p = some l ∧ k ∈ l) ↔
      p = peer ∧ k = idx ∨ ∃ l, batches.lookup p = some l ∧ k ∈ l := by
  rw [lookup_pushBatch]
  by_cases hp : p = peer
  · subst hp
    simp only [if_true, Option.some.injEq, exists_eq_left', List.mem_append, List.mem_singleton, true_and]
    cases batches.lookup p with
    | none => simp
    | some l => simp [or_comm]
  · simp [hp]

end

/-! ### The pass over the blocks -/

/-- The tables when the first `n` blocks have been looked at. -/
def dispatchUpTo (s : Scheduler) (now : Instant) (maxInFlight n : Nat) :
    Scheduler × Table PeerId (List UInt32) :=
  (List.range n).foldl (dispatchBlock now maxInFlight) (s, ∅)

section

variable {s : Scheduler} {now : Instant} {maxInFlight : Nat}

theorem dispatchUpTo_succ (n : Nat) :
    dispatchUpTo s now maxInFlight (n + 1) =
      dispatchBlock now maxInFlight (dispatchUpTo s now maxInFlight n) n := by
  rw [dispatchUpTo, List.range_succ, List.foldl_append]
  rfl

/-- **What one turn can do**: nothing, or give the block to a least-loaded peer. -/
theorem dispatchBlock_cases (acc : Scheduler × Table PeerId (List UInt32)) (idx : Nat) :
    acc.1.blockStates[idx]? ≠ some .pending ∧ dispatchBlock now maxInFlight acc idx = acc ∨
    (∀ p st, ¬ Eligible acc.1.peerStates maxInFlight (UInt32.ofNat idx) p st) ∧
      dispatchBlock now maxInFlight acc idx = acc ∨
    ∃ peer, acc.1.blockStates[idx]? = some .pending ∧
      LeastLoaded acc.1.peerStates maxInFlight (UInt32.ofNat idx) peer ∧
      dispatchBlock now maxInFlight acc idx =
        (acc.1.assign idx peer now, pushBatch acc.2 peer (UInt32.ofNat idx)) := by
  unfold dispatchBlock
  split
  next hpending =>
    cases hc : choosePeer acc.1.peerStates maxInFlight (UInt32.ofNat idx) with
    | none => exact Or.inr (Or.inl ⟨not_eligible_of_choosePeer hc, rfl⟩)
    | some peer => exact Or.inr (Or.inr ⟨peer, hpending, leastLoaded_of_choosePeer hc, rfl⟩)
  next hnot => exact Or.inl ⟨hnot, rfl⟩

/-- The block was pending and is not any more. -/
def Taken (before after : Scheduler) (i : Nat) : Prop :=
  before.blockStates[i]? = some .pending ∧ after.blockStates[i]? ≠ some .pending

instance (before after : Scheduler) (i : Nat) : Decidable (Taken before after i) :=
  inferInstanceAs (Decidable (_ ∧ _))

/-- The invariant of the pass: the blocks below `n` have been looked at. -/
structure DispatchedUpTo (s : Scheduler) (now : Instant) (maxInFlight n : Nat)
    (acc : Scheduler × Table PeerId (List UInt32)) : Prop where
  later : ∀ i, n ≤ i → acc.1.blockStates[i]? = s.blockStates[i]?
  others : ∀ i : Nat, s.blockStates[i]? ≠ some .pending → acc.1.blockStates[i]? = s.blockStates[i]?
  taken : ∀ i, Taken s acc.1 i → ∃ p, acc.1.blockStates[i]? = some (.inFlight p now) ∧
    LeastLoaded (dispatchUpTo s now maxInFlight i).1.peerStates maxInFlight (UInt32.ofNat i) p
  conserving : ∀ i < n, acc.1.blockStates[i]? = some .pending →
    ∀ p st, ¬ Eligible acc.1.peerStates maxInFlight (UInt32.ofNat i) p st
  requests : ∀ p k, (∃ l, acc.2.lookup p = some l ∧ k ∈ l) ↔
    Taken s acc.1 k.toNat ∧ acc.1.blockStates[k.toNat]? = some (.inFlight p now)
  increasing : ∀ p l, acc.2.lookup p = some l → l.Pairwise (· < ·)
  count : dispatched acc.2 = ((List.range n).filter fun i => decide (Taken s acc.1 i)).length

theorem dispatchedUpTo_zero : DispatchedUpTo s now maxInFlight 0 (dispatchUpTo s now maxInFlight 0) where
  later _ _ := rfl
  others _ _ := rfl
  taken i h := absurd h.1 h.2
  conserving i hi := absurd hi (Nat.not_lt_zero i)
  requests p k := by
    have hempty : (∅ : Table PeerId (List UInt32)).lookup p = none := AList.lookup_empty p
    refine iff_of_false ?_ fun h => h.1.2 h.1.1
    intro h'
    obtain ⟨l, hl, -⟩ := h'
    rw [dispatchUpTo, List.range_zero, List.foldl_nil, hempty] at hl
    cases hl
  increasing p l hl := by
    have hempty : (∅ : Table PeerId (List UInt32)).lookup p = none := AList.lookup_empty p
    rw [dispatchUpTo, List.range_zero, List.foldl_nil, hempty] at hl
    cases hl
  count := rfl

/-- A turn that changes nothing. -/
theorem DispatchedUpTo.skip {n : Nat} {acc : Scheduler × Table PeerId (List UInt32)}
    (h : DispatchedUpTo s now maxInFlight n acc)
    (hn : acc.1.blockStates[n]? = some .pending →
      ∀ p st, ¬ Eligible acc.1.peerStates maxInFlight (UInt32.ofNat n) p st) :
    DispatchedUpTo s now maxInFlight (n + 1) acc where
  later i hi := h.later i (Nat.le_of_succ_le hi)
  others := h.others
  taken := h.taken
  conserving i hi hpending := by
    rcases Nat.lt_succ_iff_lt_or_eq.mp hi with hlt | rfl
    · exact h.conserving i hlt hpending
    · exact hn hpending
  requests := h.requests
  increasing := h.increasing
  count := by
    have hnot : ¬ Taken s acc.1 n := fun ht => ht.2 ((h.later n (Nat.le_refl n)).trans ht.1)
    rw [h.count, List.range_succ, List.filter_append, List.length_append]
    simp [hnot]

/-- The block states after an assignment. -/
theorem getElem?_assign {acc : Scheduler} {n : Nat} (hpending : acc.blockStates[n]? = some .pending)
    (peer : PeerId) (now : Instant) (i : Nat) :
    (acc.assign n peer now).blockStates[i]? =
      if i = n then some (.inFlight peer now) else acc.blockStates[i]? := by
  by_cases hi : i = n
  · rw [if_pos hi, hi, Scheduler.getElem?_assign_self hpending]
  · rw [if_neg hi, Scheduler.getElem?_assign_of_ne (Ne.symm hi)]

/-- A turn that gives the block to a peer. -/
theorem DispatchedUpTo.assign {n : Nat} (hsize : s.blockStates.length ≤ 2 ^ 32)
    (h : DispatchedUpTo s now maxInFlight n (dispatchUpTo s now maxInFlight n)) {peer : PeerId}
    (hpending : (dispatchUpTo s now maxInFlight n).1.blockStates[n]? = some .pending)
    (hleast : LeastLoaded (dispatchUpTo s now maxInFlight n).1.peerStates maxInFlight (UInt32.ofNat n) peer) :
    DispatchedUpTo s now maxInFlight (n + 1)
      ((dispatchUpTo s now maxInFlight n).1.assign n peer now,
        pushBatch (dispatchUpTo s now maxInFlight n).2 peer (UInt32.ofNat n)) := by
  obtain ⟨acc, hacc⟩ : ∃ acc, acc = dispatchUpTo s now maxInFlight n := ⟨_, rfl⟩
  have hstates := getElem?_assign hpending peer now
  rw [← hacc] at h hpending hstates ⊢
  have hwas : s.blockStates[n]? = some .pending := (h.later n (Nat.le_refl n)).symm.trans hpending
  have hlt : n < 2 ^ 32 := Nat.lt_of_lt_of_le (List.getElem?_eq_some_iff.mp hwas).1 hsize
  have hidx : ∀ k : UInt32, k = UInt32.ofNat n ↔ k.toNat = n := by
    intro k
    rw [← UInt32.toNat_inj, UInt32.toNat_ofNat_of_lt' hlt]
  have htaken : ∀ i, i ≠ n → (Taken s (acc.1.assign n peer now) i ↔ Taken s acc.1 i) := by
    intro i hi
    rw [Taken, Taken, hstates, if_neg hi]
  have hself : Taken s (acc.1.assign n peer now) n := by
    refine ⟨hwas, ?_⟩
    rw [hstates, if_pos rfl]
    simp
  -- what has been batched so far is below `n`
  have hbelow : ∀ p l, acc.2.lookup p = some l → ∀ k ∈ l, k.toNat < n := by
    intro p l hl k hk
    by_contra hge
    have hbatched := ((h.requests p k).mp ⟨l, hl, hk⟩).1
    exact hbatched.2 ((h.later _ (Nat.le_of_not_lt hge)).trans hbatched.1)
  refine ⟨fun i hi => ?_, fun i hi => ?_, fun i hi => ?_, fun i hi hp => ?_, fun p k => ?_, fun p l hl => ?_, ?_⟩
  · rw [hstates, if_neg (by omega)]
    exact h.later i (Nat.le_of_succ_le hi)
  · have hne : i ≠ n := fun heq => hi (heq ▸ hwas)
    rw [hstates, if_neg hne]
    exact h.others i hi
  · by_cases hne : i = n
    · subst hne
      exact ⟨peer, by rw [hstates, if_pos rfl], hleast⟩
    · obtain ⟨p, hp, hleastp⟩ := h.taken i ((htaken i hne).mp hi)
      exact ⟨p, by rw [hstates, if_neg hne, hp], hleastp⟩
  · have hne : i ≠ n := by
      intro heq
      rw [heq] at hp
      exact hself.2 hp
    rw [hstates, if_neg hne] at hp
    intro q st hq
    obtain ⟨st', hst'⟩ := hq.of_assign
    exact h.conserving i (by omega) hp q st' hst'
  · rw [mem_pushBatch, h.requests, hidx, hstates]
    by_cases hk : k.toNat = n
    · rw [hk, if_pos rfl, Option.some.injEq, BlockFetchState.inFlight.injEq, and_iff_left rfl]
      constructor
      · intro h'
        rcases h' with rfl | hold
        · exact ⟨hself, rfl, rfl⟩
        · exact absurd hpending hold.1.2
      · intro hnew
        exact Or.inl hnew.2.1.symm
    · rw [if_neg hk, htaken _ hk]
      simp [hk]
  · rw [lookup_pushBatch] at hl
    split at hl
    · obtain rfl := Option.some.inj hl
      cases hb : acc.2.lookup peer with
      | none => simp
      | some l₀ =>
          rw [Option.getD_some, List.pairwise_append]
          refine ⟨h.increasing peer l₀ hb, by simp, fun k hk k' hk' => ?_⟩
          rw [List.mem_singleton.mp hk', UInt32.lt_iff_toNat_lt, UInt32.toNat_ofNat_of_lt' hlt]
          exact hbelow peer l₀ hb k hk
    · exact h.increasing p l hl
  · rw [dispatched_pushBatch, h.count, List.range_succ, List.filter_append, List.length_append]
    have hsame : ((List.range n).filter fun i => decide (Taken s (acc.1.assign n peer now) i)) =
        (List.range n).filter fun i => decide (Taken s acc.1 i) := by
      refine List.filter_congr fun i hi => ?_
      rw [decide_eq_decide]
      exact htaken i (Nat.ne_of_lt (List.mem_range.mp hi))
    simp [hsame, hself]

/-- **Run lemma.** -/
theorem dispatchedUpTo (hsize : s.blockStates.length ≤ 2 ^ 32) (n : Nat) :
    DispatchedUpTo s now maxInFlight n (dispatchUpTo s now maxInFlight n) := by
  induction n with
  | zero => exact dispatchedUpTo_zero
  | succ n ih =>
      rw [dispatchUpTo_succ]
      rcases dispatchBlock_cases (dispatchUpTo s now maxInFlight n) n with
        ⟨hnot, hsame⟩ | ⟨hnobody, hsame⟩ | ⟨peer, hpending, hleast, hnew⟩
      · rw [hsame]
        exact ih.skip fun hpending => absurd hpending hnot
      · rw [hsame]
        exact ih.skip fun _ => hnobody
      · rw [hnew]
        exact ih.assign hsize hpending hleast

/-! ### The whole call -/

/-- What a dispatch from `s` to `t`, which sent some requests and returned a number, has done. -/
structure Dispatches (s t : Scheduler) (now : Instant) (maxInFlight : Nat) (narHash : Bytes)
    (requests : List (PeerId × BlockRequest)) (count : Nat) : Prop where
  /-- No block is left that a peer with a free slot advertises. -/
  conserving : ∀ i : Nat, t.blockStates[i]? = some .pending →
    ∀ p st, ¬ Eligible t.peerStates maxInFlight (UInt32.ofNat i) p st
  /-- Every request is a `GetBlocks` for this NAR, with increasing indices. -/
  batches : ∀ p r, (p, r) ∈ requests → ∃ l, r = .getBlocks narHash l ∧ l.Pairwise (· < ·)
  onePerPeer : (requests.map Prod.fst).Nodup
  /-- A block is requested from a peer exactly if it was pending and is now in flight there. -/
  exact : ∀ p k, (∃ l, (p, BlockRequest.getBlocks narHash l) ∈ requests ∧ k ∈ l) ↔
    s.blockStates[k.toNat]? = some .pending ∧ t.blockStates[k.toNat]? = some (.inFlight p now)
  disjoint : ∀ p q l l', (p, BlockRequest.getBlocks narHash l) ∈ requests →
    (q, BlockRequest.getBlocks narHash l') ∈ requests → p ≠ q → l.Disjoint l'
  /-- A block that went to a peer went to one that was least loaded when it was looked at. -/
  least : ∀ i p, s.blockStates[i]? = some .pending → t.blockStates[i]? = some (.inFlight p now) →
    LeastLoaded (dispatchUpTo s now maxInFlight i).1.peerStates maxInFlight (UInt32.ofNat i) p
  /-- A block is left alone or goes from pending to in flight. -/
  others : ∀ i : Nat, t.blockStates[i]? = s.blockStates[i]? ∨
    s.blockStates[i]? = some .pending ∧ ∃ p, t.blockStates[i]? = some (.inFlight p now)
  count : count = ((List.range s.blockStates.length).filter fun i => decide (Taken s t i)).length

theorem mem_batchRequests {narHash : Bytes} {batches : Table PeerId (List UInt32)} {p : PeerId}
    {r : BlockRequest} :
    (p, r) ∈ batchRequests narHash batches ↔ ∃ l, batches.lookup p = some l ∧ r = .getBlocks narHash l := by
  simp only [batchRequests, List.mem_map, Prod.mk.injEq]
  constructor
  · intro h
    obtain ⟨e, he, rfl, rfl⟩ := h
    exact ⟨e.2, AList.mem_lookup_iff.mpr he, rfl⟩
  · intro h
    obtain ⟨l, hl, rfl⟩ := h
    exact ⟨⟨p, l⟩, AList.mem_lookup_iff.mp hl, rfl, rfl⟩

/-- **Dispatching is work-conserving and consistent.** For every block table, every peer table in
every iteration order and every number of slots. -/
theorem dispatchBlockRequests_dispatches (s : Scheduler) (hsize : s.blockStates.length ≤ 2 ^ 32)
    (now : Instant) (maxInFlight : Nat) (narHash : Bytes) :
    Dispatches s (dispatchBlockRequests s now maxInFlight).1 now maxInFlight narHash
      (batchRequests narHash (dispatchBlockRequests s now maxInFlight).2)
      (dispatched (dispatchBlockRequests s now maxInFlight).2) := by
  have h : DispatchedUpTo s now maxInFlight s.blockStates.length (dispatchBlockRequests s now maxInFlight) :=
    dispatchedUpTo hsize s.blockStates.length
  generalize dispatchBlockRequests s now maxInFlight = result at h
  obtain ⟨t, batches⟩ := result
  have hexact : ∀ p k, (∃ l, (p, BlockRequest.getBlocks narHash l) ∈ batchRequests narHash batches ∧ k ∈ l) ↔
      s.blockStates[k.toNat]? = some .pending ∧ t.blockStates[k.toNat]? = some (.inFlight p now) := by
    intro p k
    have hrequests := h.requests p k
    dsimp only at hrequests
    constructor
    · intro h'
      obtain ⟨l, hl, hk⟩ := h'
      obtain ⟨l', hl', heq⟩ := mem_batchRequests.mp hl
      obtain ⟨-, rfl⟩ := BlockRequest.getBlocks.inj heq
      obtain ⟨ht, hflight⟩ := hrequests.mp ⟨l, hl', hk⟩
      exact ⟨ht.1, hflight⟩
    · intro h'
      obtain ⟨hpending, hflight⟩ := h'
      obtain ⟨l, hl, hk⟩ := hrequests.mpr ⟨⟨hpending, by rw [hflight]; simp⟩, hflight⟩
      exact ⟨l, mem_batchRequests.mpr ⟨l, hl, rfl⟩, hk⟩
  refine ⟨fun i hi => ?_, fun p r hr => ?_, ?_, hexact, fun p q l l' hl hl' hne k hk hk' => ?_,
    fun i p hi hp => ?_, fun i => ?_, h.count⟩
  · -- a block beyond the table has no state
    refine h.conserving i ?_ hi
    by_contra hge
    have hlater := h.later i (Nat.le_of_not_lt hge)
    rw [List.getElem?_eq_none (Nat.le_of_not_lt hge)] at hlater
    rw [hlater] at hi
    cases hi
  · obtain ⟨l, hl, rfl⟩ := mem_batchRequests.mp hr
    exact ⟨l, rfl, h.increasing p l hl⟩
  · have hkeys : (batchRequests narHash batches).map Prod.fst = batches.keys := by
      rw [batchRequests, List.map_map]
      rfl
    rw [hkeys]
    exact batches.keys_nodup
  · have hp := ((hexact p k).mp ⟨l, hl, hk⟩).2
    rw [((hexact q k).mp ⟨l', hl', hk'⟩).2] at hp
    exact hne (BlockFetchState.inFlight.inj (Option.some.inj hp)).1.symm
  · obtain ⟨q, hq, hleast⟩ := h.taken i ⟨hi, by rw [hp]; simp⟩
    dsimp only at hq
    rw [hp] at hq
    obtain ⟨rfl, -⟩ := BlockFetchState.inFlight.inj (Option.some.inj hq)
    exact hleast
  · by_cases hi : s.blockStates[i]? = some .pending
    · by_cases ht : t.blockStates[i]? = some .pending
      · exact Or.inl (ht.trans hi.symm)
      · obtain ⟨p, hp, -⟩ := h.taken i ⟨hi, ht⟩
        exact Or.inr ⟨hi, p, hp⟩
    · exact Or.inl (h.others i hi)

end

/-- Two pending blocks and one free slot. -/
theorem dispatchBlockRequests_dispatches_sample :
    ∃ s : Scheduler, s.blockStates.length ≤ 2 ^ 32 ∧
      Dispatches s (dispatchBlockRequests s 0 1).1 0 1 []
        (batchRequests [] (dispatchBlockRequests s 0 1).2) 1 := by
  let s : Scheduler := ⟨Table.ofPairs [(⟨[1]⟩, ⟨{0, 1}, ∅, 0, 0⟩)], [.pending, .pending]⟩
  have hcount : dispatched (dispatchBlockRequests s 0 1).2 = 1 := by decide +kernel
  refine ⟨s, by decide, ?_⟩
  rw [← hcount]
  exact dispatchBlockRequests_dispatches s (by decide) 0 1 []

end GuixP2p
