import GuixP2p.Daemon.Dispatch
import GuixP2p.Daemon.FetchSafety

/-!
# GuixP2p.Daemon.BlockLoss

**What losing a block costs the peer that owed it.** A block in flight is lost in three ways: it
expires, the request fails, or the answer does not match the hash. In all three the block goes back
to pending and the peer loses the slot. The first two also charge the peer a failure, so that the
next dispatch prefers another peer with the same load; the third one does not.

Expiring and failing are one loop with two tests, `releaseTurn`, and `ReleasedUpTo` is its invariant.
-/

namespace GuixP2p

open GuixP2p.Lib
open Scheduler (Moves Move)

/-! ### Failures -/

namespace Scheduler

variable {s t : Scheduler}

/-- The failures peer `p` has been charged; `none` for a peer that is not part of the download. -/
def failures (s : Scheduler) (p : PeerId) : Option Nat := (s.peerStates.lookup p).map (·.failures)

/-- The failures after an update of one peer's state. -/
theorem failures_modify {peer : PeerId} {f : PeerFetchState → PeerFetchState}
    (ht : t.peerStates = s.peerStates.modify peer f) {n : Nat}
    (hf : ∀ st, (f st).failures = st.failures + n) (p : PeerId) :
    t.failures p = if p = peer then (s.failures p).map (· + n) else s.failures p := by
  unfold failures
  rw [ht, Table.lookup_modify]
  by_cases hp : p = peer
  · rw [if_pos hp, if_pos hp]
    cases s.peerStates.lookup p with
    | none => rfl
    | some st => simp [hf]
  · rw [if_neg hp, if_neg hp]

theorem failures_release (idx : Nat) (peer p : PeerId) (penalty : Nat) :
    (s.release idx peer penalty).failures p =
      if p = peer then (s.failures p).map (· + penalty) else s.failures p :=
  failures_modify rfl (fun _ => rfl) p

end Scheduler

/-! ### The loop that takes blocks back -/

section

variable {lost : PeerId → Instant → Bool} {penalty : Nat} {s : Scheduler}

/-- The peer that block `j` is taken back from, when `lost` says so of its request. -/
def takenFrom (lost : PeerId → Instant → Bool) (s : Scheduler) (j : Nat) : Option PeerId :=
  match s.blockStates[j]? with
  | some (.inFlight peer requestedAt) => if lost peer requestedAt then some peer else none
  | _ => none

theorem takenFrom_eq_some_iff {j : Nat} {p : PeerId} :
    takenFrom lost s j = some p ↔ ∃ t, s.blockStates[j]? = some (.inFlight p t) ∧ lost p t = true := by
  unfold takenFrom
  split
  next peer t hj =>
    by_cases hlost : lost peer t = true
    · rw [if_pos hlost, Option.some.injEq]
      constructor
      · intro h
        obtain rfl := h
        exact ⟨t, hj, hlost⟩
      · intro h
        obtain ⟨t', hj', -⟩ := h
        simp only [hj, Option.some.injEq, BlockFetchState.inFlight.injEq] at hj'
        exact hj'.1
    · rw [if_neg hlost]
      refine iff_of_false nofun ?_
      intro h
      obtain ⟨t', hj', hlost'⟩ := h
      simp only [hj, Option.some.injEq, BlockFetchState.inFlight.injEq] at hj'
      rw [hj'.1, hj'.2] at hlost
      exact hlost hlost'
  next hnot =>
    refine iff_of_false nofun ?_
    intro h
    obtain ⟨t, hj, -⟩ := h
    exact hnot p t hj

/-- One turn of the loop. -/
def releaseTurn (lost : PeerId → Instant → Bool) (penalty : Nat) (acc : Scheduler × Nat) (idx : Nat) :
    Scheduler × Nat :=
  match takenFrom lost acc.1 idx with
  | some peer => (acc.1.release idx peer penalty, acc.2 + 1)
  | none => acc

theorem requeueExpiredBlock_eq (now timeout : Instant) :
    requeueExpiredBlock now timeout = releaseTurn (fun _ t => decide (timeout ≤ now - t)) 1 := by
  funext acc idx
  unfold requeueExpiredBlock releaseTurn takenFrom
  cases acc.1.blockStates[idx]? with
  | none => rfl
  | some st =>
      cases st with
      | pending => rfl
      | complete => rfl
      | inFlight peer t => by_cases h : timeout ≤ now - t <;> simp [h]

theorem requeueInFlightBlock_eq (peer : PeerId) :
    requeueInFlightBlock peer = releaseTurn (fun q _ => decide (q = peer)) 0 := by
  funext acc idx
  unfold requeueInFlightBlock releaseTurn takenFrom
  cases acc.1.blockStates[idx]? with
  | none => rfl
  | some st =>
      cases st with
      | pending => rfl
      | complete => rfl
      | inFlight q t => by_cases h : q = peer <;> simp [h]

/-- The blocks below `n` that are taken back from `p`. -/
def takenCount (lost : PeerId → Instant → Bool) (s : Scheduler) (p : PeerId) (n : Nat) : Nat :=
  (List.range n).countP fun j => takenFrom lost s j = some p

theorem takenCount_succ (p : PeerId) (n : Nat) :
    takenCount lost s p (n + 1) = takenCount lost s p n + if takenFrom lost s n = some p then 1 else 0 := by
  simp [takenCount, List.range_succ]

/-- The loop when the first `n` blocks have been looked at: those that are lost are pending, their
slots are free, and each has charged its peer `penalty` failures. -/
structure ReleasedUpTo (lost : PeerId → Instant → Bool) (penalty : Nat) (s : Scheduler) (n : Nat)
    (acc : Scheduler × Nat) : Prop where
  blockStates : ∀ j, acc.1.blockStates[j]? =
    if j < n ∧ (takenFrom lost s j).isSome then some .pending else s.blockStates[j]?
  slots : ∀ p k, k ∈ acc.1.slots p ↔
    k ∈ s.slots p ∧ ∀ j < n, takenFrom lost s j = some p → UInt32.ofNat j ≠ k
  advertised : ∀ p, acc.1.advertised p = s.advertised p
  failures : ∀ p, acc.1.failures p = (s.failures p).map (· + penalty * takenCount lost s p n)
  count : acc.2 = (List.range n).countP fun j => (takenFrom lost s j).isSome

theorem releasedUpTo_zero : ReleasedUpTo lost penalty s 0 (s, 0) where
  blockStates j := by simp
  slots p k := by simp
  advertised _ := rfl
  failures p := by simp [takenCount]
  count := rfl

/-- A turn that finds nothing to take back. -/
theorem ReleasedUpTo.skip {n : Nat} {acc : Scheduler × Nat} (h : ReleasedUpTo lost penalty s n acc)
    (hn : takenFrom lost s n = none) : ReleasedUpTo lost penalty s (n + 1) acc where
  blockStates j := by
    rw [h.blockStates]
    by_cases hj : j = n
    · simp [hj, hn]
    · simp only [Nat.lt_succ_iff_lt_or_eq, hj, or_false]
  slots p k := by
    simp only [h.slots, Nat.lt_succ_iff_lt_or_eq, or_imp, forall_and, forall_eq, hn, reduceCtorEq,
      false_implies, and_true]
  advertised := h.advertised
  failures p := by
    rw [h.failures, takenCount_succ, hn]
    simp
  count := by
    rw [h.count, List.range_succ, List.countP_append]
    simp [hn]

/-- A turn that takes block `n` back. -/
theorem ReleasedUpTo.release {n : Nat} {acc : Scheduler × Nat} (h : ReleasedUpTo lost penalty s n acc)
    {peer : PeerId} (hn : takenFrom lost s n = some peer) :
    ReleasedUpTo lost penalty s (n + 1) (acc.1.release n peer penalty, acc.2 + 1) where
  blockStates j := by
    obtain ⟨t, hin, -⟩ := takenFrom_eq_some_iff.mp hn
    have hacc : acc.1.blockStates[n]? = some (.inFlight peer t) := by
      rw [h.blockStates, if_neg (by simp), hin]
    by_cases hj : j = n
    · rw [hj, Scheduler.getElem?_release_self hacc]
      simp [hn]
    · rw [Scheduler.getElem?_release_of_ne (Ne.symm hj), h.blockStates]
      simp only [Nat.lt_succ_iff_lt_or_eq, hj, or_false]
  slots p k := by
    rw [Scheduler.slots_release]
    by_cases hp : p = peer
    · subst hp
      rw [if_pos rfl, Finset.mem_erase, h.slots]
      simp only [Nat.lt_succ_iff_lt_or_eq, or_imp, forall_and, forall_eq, hn, true_implies]
      tauto
    · rw [if_neg hp, h.slots]
      simp only [Nat.lt_succ_iff_lt_or_eq, or_imp, forall_and, forall_eq, hn, Option.some.injEq,
        Ne.symm hp, false_implies, and_true]
  advertised p := (Scheduler.advertised_modify rfl (by intro st; rfl) p).trans (h.advertised p)
  failures p := by
    rw [Scheduler.failures_release, h.failures, takenCount_succ, hn]
    by_cases hp : p = peer
    · subst hp
      simp [Function.comp_def, Nat.mul_add, Nat.add_assoc]
    · simp [hp, Ne.symm hp]
  count := by
    rw [h.count, List.range_succ, List.countP_append]
    simp [hn]

/-- **Run lemma.** -/
theorem releasedUpTo (lost : PeerId → Instant → Bool) (penalty : Nat) (s : Scheduler) (n : Nat) :
    ReleasedUpTo lost penalty s n ((List.range n).foldl (releaseTurn lost penalty) (s, 0)) := by
  induction n with
  | zero => exact releasedUpTo_zero
  | succ n ih =>
      rw [List.range_succ, List.foldl_append, List.foldl_cons, List.foldl_nil]
      generalize (List.range n).foldl (releaseTurn lost penalty) (s, 0) = acc at ih ⊢
      -- block `n` has not been looked at yet
      have hsame : takenFrom lost acc.1 n = takenFrom lost s n := by
        rw [takenFrom, takenFrom, ih.blockStates, if_neg (by simp)]
      rw [releaseTurn, hsame]
      cases hn : takenFrom lost s n with
      | none => exact ih.skip hn
      | some peer => exact ih.release hn

/-- A block that was taken back is pending and uses no slot of its peer. -/
theorem ReleasedUpTo.pending {n i : Nat} {acc : Scheduler × Nat} {p : PeerId}
    (h : ReleasedUpTo lost penalty s n acc) (hi : i < n) (htaken : takenFrom lost s i = some p) :
    acc.1.blockStates[i]? = some .pending ∧ UInt32.ofNat i ∉ acc.1.slots p := by
  constructor
  · rw [h.blockStates, if_pos ⟨hi, by simp [htaken]⟩]
  · rw [h.slots]
    exact fun hslot => hslot.2 i hi htaken rfl

theorem requeueExpiredBlocks_released (s : Scheduler) (now timeout : Instant) :
    ReleasedUpTo (fun _ t => decide (timeout ≤ now - t)) 1 s s.blockStates.length
      (requeueExpiredBlocks s now timeout) := by
  rw [requeueExpiredBlocks, requeueExpiredBlock_eq]
  exact releasedUpTo _ _ _ _

/-- A failed request gives all blocks of the peer back and charges it one failure if there were any. -/
theorem requeueInFlightBlocksForPeer_released (s : Scheduler) (peer : PeerId) :
    ∃ acc, ReleasedUpTo (fun q _ => decide (q = peer)) 0 s s.blockStates.length acc ∧
      requeueInFlightBlocksForPeer s peer = if 0 < acc.2 then (acc.1.penalize peer, acc.2) else acc := by
  refine ⟨_, releasedUpTo _ _ _ _, ?_⟩
  rw [requeueInFlightBlocksForPeer, requeueInFlightBlock_eq]

end

/-! ### Losing a block -/

namespace BlockDownload

variable [Sha256] {narHashHex : Text} {narSize : UInt64} {blockInfo : BlockInfo}
  {handshakes : List PeerHandshake} {cfg : FetchConfig} {s₀ s s' : BlockDownload}
  {events : List FetchEvent}

end BlockDownload

end GuixP2p
