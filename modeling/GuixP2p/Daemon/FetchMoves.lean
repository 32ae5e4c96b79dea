import Mathlib.Logic.Relation
import GuixP2p.Daemon.BlockFetch

/-!
# GuixP2p.Daemon.FetchMoves

**What the scheduler's operations can do.** Dispatching, expiring and failing are
loops over the block table; each of their turns is one of three elementary moves:
assign a pending block to an eligible peer, release a block that is in flight, or
charge a peer a failure. `Move` states these with all their guards, and the three
loops are shown to be sequences of moves, so an invariant of the scheduler is
checked against three moves instead of three loops.

A response is the fourth operation; `getElem?_afterResponse` and
`mem_slots_afterResponse` say what it does to each block and each peer's slots.
-/

namespace GuixP2p

open GuixP2p.Lib

namespace Scheduler

variable {s : Scheduler}

/-! ### The elementary updates, seen per block and per peer -/

/-- The slots peer `p` has in use. -/
def slots (s : Scheduler) (p : PeerId) : Finset UInt32 :=
  ((s.peerStates.lookup p).map (·.inFlight)).getD ∅

/-- The blocks peer `p` advertised; `none` for a peer that is not part of the download. -/
def advertised (s : Scheduler) (p : PeerId) : Option (Finset UInt32) :=
  (s.peerStates.lookup p).map (·.available)

theorem slots_of_lookup {p : PeerId} {st : PeerFetchState}
    (h : s.peerStates.lookup p = some st) : s.slots p = st.inFlight := by
  simp [slots, h]

theorem advertised_of_lookup {p : PeerId} {st : PeerFetchState}
    (h : s.peerStates.lookup p = some st) : s.advertised p = some st.available := by
  simp [advertised, h]

/-- A peer with a slot in use is one of the download's peers. -/
theorem mem_slots {p : PeerId} {k : UInt32} :
    k ∈ s.slots p ↔ ∃ st, s.peerStates.lookup p = some st ∧ k ∈ st.inFlight := by
  unfold slots
  cases s.peerStates.lookup p with
  | none => simp
  | some st => simp

theorem isSome_advertised {p : PeerId} :
    (s.advertised p).isSome ↔ ∃ st, s.peerStates.lookup p = some st := by
  rw [advertised, Option.isSome_map, Option.isSome_iff_exists]

/-- The slots after an update of one peer's state. -/
theorem slots_modify {t : Scheduler} {peer : PeerId} {f : PeerFetchState → PeerFetchState}
    (ht : t.peerStates = s.peerStates.modify peer f) (g : Finset UInt32 → Finset UInt32)
    (hg : g ∅ = ∅) (hf : ∀ st, (f st).inFlight = g st.inFlight) (p : PeerId) :
    t.slots p = if p = peer then g (s.slots p) else s.slots p := by
  unfold slots
  rw [ht, Table.lookup_modify]
  by_cases hp : p = peer
  · rw [if_pos hp, if_pos hp]
    cases s.peerStates.lookup p with
    | none => exact hg.symm
    | some st => exact hf st
  · rw [if_neg hp, if_neg hp]

/-- No update of a peer's state touches what it advertised. -/
theorem advertised_modify {t : Scheduler} {peer : PeerId} {f : PeerFetchState → PeerFetchState}
    (ht : t.peerStates = s.peerStates.modify peer f) (hf : ∀ st, (f st).available = st.available)
    (p : PeerId) : t.advertised p = s.advertised p := by
  unfold advertised
  rw [ht, Table.lookup_modify]
  by_cases hp : p = peer
  · rw [if_pos hp]
    cases s.peerStates.lookup p with
    | none => rfl
    | some st => simp [hf]
  · rw [if_neg hp]

theorem getElem?_assign_self {idx : Nat} {peer : PeerId} {now : Instant} {st : BlockFetchState}
    (h : s.blockStates[idx]? = some st) :
    (s.assign idx peer now).blockStates[idx]? = some (.inFlight peer now) :=
  List.getElem?_set_self (List.getElem?_eq_some_iff.mp h).1

theorem getElem?_assign_of_ne {idx j : Nat} (h : idx ≠ j) (peer : PeerId) (now : Instant) :
    (s.assign idx peer now).blockStates[j]? = s.blockStates[j]? :=
  List.getElem?_set_ne h

theorem slots_assign_self {idx : Nat} {peer : PeerId} {now : Instant} {st : PeerFetchState}
    (h : s.peerStates.lookup peer = some st) :
    (s.assign idx peer now).slots peer = insert (UInt32.ofNat idx) (s.slots peer) := by
  simp [slots, assign, h]

theorem slots_assign_of_ne {idx : Nat} {peer p : PeerId} (h : p ≠ peer) (now : Instant) :
    (s.assign idx peer now).slots p = s.slots p := by
  simp [slots, assign, Table.lookup_modify_of_ne h]

theorem getElem?_release_self {idx : Nat} {peer : PeerId} {penalty : Nat} {st : BlockFetchState}
    (h : s.blockStates[idx]? = some st) :
    (s.release idx peer penalty).blockStates[idx]? = some .pending :=
  List.getElem?_set_self (List.getElem?_eq_some_iff.mp h).1

theorem getElem?_release_of_ne {idx j : Nat} (h : idx ≠ j) (peer : PeerId) (penalty : Nat) :
    (s.release idx peer penalty).blockStates[j]? = s.blockStates[j]? :=
  List.getElem?_set_ne h

theorem slots_release (idx : Nat) (peer p : PeerId) (penalty : Nat) :
    (s.release idx peer penalty).slots p =
      if p = peer then (s.slots p).erase (UInt32.ofNat idx) else s.slots p :=
  slots_modify rfl (·.erase _) (Finset.erase_empty _) (fun _ => rfl) p

theorem slots_penalize (peer p : PeerId) : (s.penalize peer).slots p = s.slots p := by
  rw [slots_modify rfl id rfl (by intro st; rfl) p]
  simp

/-! ### Moves -/

/-- One elementary move, with everything the code has checked before making it. -/
inductive Move (maxInFlight : Nat) : Scheduler → Scheduler → Prop
  /-- A pending block goes to a peer that advertises it and has a free slot. -/
  | assign {s : Scheduler} {idx : Nat} {peer : PeerId} {now : Instant} {st : PeerFetchState} :
      s.blockStates[idx]? = some .pending → s.peerStates.lookup peer = some st →
      st.inFlight.card < maxInFlight → UInt32.ofNat idx ∈ st.available →
      Move maxInFlight s (s.assign idx peer now)
  /-- A block in flight is taken back from the peer it was requested from. -/
  | release {s : Scheduler} {idx : Nat} {peer : PeerId} {requestedAt : Instant} {penalty : Nat} :
      s.blockStates[idx]? = some (.inFlight peer requestedAt) →
      Move maxInFlight s (s.release idx peer penalty)
  | penalize {s : Scheduler} {peer : PeerId} : Move maxInFlight s (s.penalize peer)

/-- Finitely many moves. -/
abbrev Moves (maxInFlight : Nat) := Relation.ReflTransGen (Move maxInFlight)

theorem Moves.invariant {maxInFlight : Nat} {P : Scheduler → Prop}
    (hmove : ∀ s t, Move maxInFlight s t → P s → P t) {s t : Scheduler}
    (h : Moves maxInFlight s t) (hs : P s) : P t := by
  induction h with
  | refl => exact hs
  | tail _ hm ih => exact hmove _ _ hm ih

theorem Move.length_eq {m : Nat} {s t : Scheduler} (h : Move m s t) :
    t.blockStates.length = s.blockStates.length := by
  cases h with
  | assign => exact List.length_set
  | release => exact List.length_set
  | penalize => rfl

theorem Move.advertised_eq {m : Nat} {s t : Scheduler} (h : Move m s t) (p : PeerId) :
    t.advertised p = s.advertised p := by
  cases h with
  | assign => exact advertised_modify rfl (by intro st; rfl) p
  | release => exact advertised_modify rfl (by intro st; rfl) p
  | penalize => exact advertised_modify rfl (by intro st; rfl) p

/-- A loop whose turns are moves is a sequence of moves, whatever it accumulates. -/
theorem moves_foldl {maxInFlight : Nat} {α : Type} {f : Scheduler × α → Nat → Scheduler × α}
    (hturn : ∀ acc idx, Moves maxInFlight acc.1 (f acc idx).1) (l : List Nat)
    (acc : Scheduler × α) : Moves maxInFlight acc.1 (l.foldl f acc).1 := by
  induction l generalizing acc with
  | nil => exact .refl
  | cons idx l ih =>
      rw [List.foldl_cons]
      exact (hturn acc idx).trans (ih (f acc idx))

end Scheduler

open Scheduler (Moves Move)

/-- The chosen peer is known, has a free slot and advertises the block. -/
theorem choosePeer_spec {peerStates : Table PeerId PeerFetchState} {maxInFlight : Nat}
    {idx : UInt32} {peer : PeerId} (h : choosePeer peerStates maxInFlight idx = some peer) :
    ∃ st, peerStates.lookup peer = some st ∧ st.inFlight.card < maxInFlight ∧
      idx ∈ st.available := by
  unfold choosePeer at h
  obtain ⟨e, he, rfl⟩ := Option.map_eq_some_iff.mp h
  obtain ⟨hmem, hcond⟩ := List.mem_filter.mp (List.argmin_mem he)
  simp only [Bool.and_eq_true, decide_eq_true_eq] at hcond
  exact ⟨e.2, AList.mem_lookup_iff.mpr hmem, hcond.1, hcond.2⟩

theorem dispatchBlock_moves (now : Instant) (maxInFlight : Nat)
    (acc : Scheduler × Table PeerId (List UInt32)) (idx : Nat) :
    Moves maxInFlight acc.1 (dispatchBlock now maxInFlight acc idx).1 := by
  unfold dispatchBlock
  split
  next hpending =>
    cases hc : choosePeer acc.1.peerStates maxInFlight (UInt32.ofNat idx) with
    | none => exact .refl
    | some peer =>
        obtain ⟨st, hst, hfree, hadv⟩ := choosePeer_spec hc
        exact .single (.assign hpending hst hfree hadv)
  next => exact .refl

theorem dispatchBlockRequests_moves (s : Scheduler) (now : Instant) (maxInFlight : Nat) :
    Moves maxInFlight s (dispatchBlockRequests s now maxInFlight).1 :=
  Scheduler.moves_foldl (dispatchBlock_moves now maxInFlight) _ (s, ∅)

theorem requeueExpiredBlocks_moves (s : Scheduler) (now timeout : Instant) (maxInFlight : Nat) :
    Moves maxInFlight s (requeueExpiredBlocks s now timeout).1 := by
  refine Scheduler.moves_foldl (fun acc idx => ?_) _ (s, 0)
  unfold requeueExpiredBlock
  split
  next hin =>
    split
    · exact .single (.release hin)
    · exact .refl
  next => exact .refl

theorem requeueInFlightBlock_moves (peer : PeerId) (maxInFlight : Nat) (acc : Scheduler × Nat)
    (idx : Nat) : Moves maxInFlight acc.1 (requeueInFlightBlock peer acc idx).1 := by
  unfold requeueInFlightBlock
  split
  next hin =>
    split
    next heq =>
      subst heq
      exact .single (.release hin)
    next => exact .refl
  next => exact .refl

theorem requeueInFlightBlocksForPeer_moves (s : Scheduler) (peer : PeerId) (maxInFlight : Nat) :
    Moves maxInFlight s (requeueInFlightBlocksForPeer s peer).1 := by
  have hloop := Scheduler.moves_foldl (requeueInFlightBlock_moves peer maxInFlight)
    (List.range s.blockStates.length) (s, 0)
  unfold requeueInFlightBlocksForPeer
  dsimp only
  split
  · exact hloop.tail .penalize
  · exact hloop

/-! ### Responses -/

theorem mem_decodeBlockData {data : List BlockData} {i : UInt32} {b : Bytes} :
    (i, b) ∈ decodeBlockData data ↔ ⟨i, b⟩ ∈ data := by
  constructor
  · intro h
    obtain ⟨bd, hbd, heq⟩ := List.mem_map.mp h
    obtain ⟨rfl, rfl⟩ := Prod.mk.inj heq
    exact hbd
  · exact fun h => List.mem_map.mpr ⟨_, h, rfl⟩

theorem mem_foldl_erase {blocks : List (UInt32 × Bytes)} {inFlight : Finset UInt32} {i : UInt32} :
    i ∈ blocks.foldl (fun s b => s.erase b.1) inFlight ↔
      i ∈ inFlight ∧ ∀ b ∈ blocks, b.1 ≠ i := by
  have hstep : ∀ (s : Finset UInt32) (b : UInt32 × Bytes), i ∈ s.erase b.1 ↔ i ∈ s ∧ b.1 ≠ i := by
    intro s b
    rw [Finset.mem_erase, and_comm, ne_comm]
  exact foldl_iff_and (P := fun s : Finset UInt32 => i ∈ s) hstep blocks inFlight

/-- Block `j` is among the accepted ones. -/
def AcceptedAt (accepted : List UInt32) (j : Nat) : Prop := ∃ a ∈ accepted, a.toNat = j

/-- The response names block `j`. -/
def NamedAt (blocks : List (UInt32 × Bytes)) (j : Nat) : Prop := ∃ b ∈ blocks, b.1.toNat = j

instance (accepted : List UInt32) (j : Nat) : Decidable (AcceptedAt accepted j) :=
  inferInstanceAs (Decidable (∃ a ∈ accepted, a.toNat = j))

instance (blocks : List (UInt32 × Bytes)) (j : Nat) : Decidable (NamedAt blocks j) :=
  inferInstanceAs (Decidable (∃ b ∈ blocks, b.1.toNat = j))

/-- A block that was in flight to the sender becomes pending. -/
def BlockFetchState.retry (peer : PeerId) : BlockFetchState → BlockFetchState
  | .inFlight statePeer t => if statePeer = peer then .pending else .inFlight statePeer t
  | st => st

theorem BlockFetchState.retry_retry (peer : PeerId) (st : BlockFetchState) :
    (st.retry peer).retry peer = st.retry peer := by
  cases st with
  | pending => rfl
  | complete => rfl
  | inFlight q t =>
      by_cases h : q = peer <;> simp [BlockFetchState.retry, h]

theorem getElem?_markAcceptedBlock (states : List BlockFetchState) (idx : UInt32) (j : Nat) :
    (markAcceptedBlock states idx)[j]? =
      if idx.toNat = j then states[j]?.map fun _ => .complete else states[j]? := by
  unfold markAcceptedBlock
  by_cases hj : idx.toNat = j
  · subst hj
    rw [if_pos rfl]
    split
    next hnone => rw [hnone]; rfl
    next hcomplete => rw [hcomplete]; rfl
    next st _ hst =>
      rw [List.getElem?_set_self (List.getElem?_eq_some_iff.mp hst).1, hst]
      rfl
  · rw [if_neg hj]
    split
    · rfl
    · rfl
    · exact List.getElem?_set_ne hj

theorem getElem?_markAcceptedBlocks (states : List BlockFetchState) (accepted : List UInt32)
    (j : Nat) :
    (markAcceptedBlocks states accepted)[j]? =
      if AcceptedAt accepted j then states[j]?.map fun _ => .complete else states[j]? := by
  unfold markAcceptedBlocks
  induction accepted generalizing states with
  | nil => simp [AcceptedAt]
  | cons a accepted ih =>
      rw [List.foldl_cons, ih, getElem?_markAcceptedBlock]
      have hcons : AcceptedAt (a :: accepted) j ↔ a.toNat = j ∨ AcceptedAt accepted j := by
        simp [AcceptedAt]
      simp only [hcons]
      by_cases ha : a.toNat = j
      · rw [if_pos ha, if_pos (Or.inl ha)]
        split <;> cases states[j]? <;> rfl
      · rw [if_neg ha]
        simp [ha]

theorem getElem?_requeueRejectedBlock (peer : PeerId) (accepted : List UInt32)
    (states : List BlockFetchState) (idx : UInt32) (j : Nat) :
    (requeueRejectedBlock peer accepted states idx)[j]? =
      if idx ∉ accepted ∧ idx.toNat = j then states[j]?.map (BlockFetchState.retry peer)
      else states[j]? := by
  unfold requeueRejectedBlock
  by_cases hacc : idx ∈ accepted
  · rw [if_pos hacc, if_neg fun h => h.1 hacc]
  · rw [if_neg hacc]
    by_cases hj : idx.toNat = j
    · subst hj
      rw [if_pos ⟨hacc, rfl⟩]
      cases hst : states[idx.toNat]? with
      | none => simpa using hst
      | some st =>
          cases st with
          | pending => exact hst
          | complete => exact hst
          | inFlight q t =>
              dsimp only
              by_cases hq : q = peer
              · rw [if_pos hq, List.getElem?_set_self (List.getElem?_eq_some_iff.mp hst).1]
                simp [BlockFetchState.retry, hq]
              · rw [if_neg hq, hst]
                simp [BlockFetchState.retry, hq]
    · rw [if_neg fun h => hj h.2]
      split
      · split
        · exact List.getElem?_set_ne hj
        · rfl
      · rfl

theorem getElem?_requeueRejectedBlocks (states : List BlockFetchState) (peer : PeerId)
    (blocks : List (UInt32 × Bytes)) (accepted : List UInt32) (j : Nat) :
    (requeueRejectedBlocks states peer blocks accepted)[j]? =
      if ∃ b ∈ blocks, b.1 ∉ accepted ∧ b.1.toNat = j then
        states[j]?.map (BlockFetchState.retry peer)
      else states[j]? := by
  unfold requeueRejectedBlocks
  induction blocks generalizing states with
  | nil => simp
  | cons b blocks ih =>
      rw [List.foldl_cons, ih, getElem?_requeueRejectedBlock]
      simp only [List.exists_mem_cons_iff]
      by_cases hb : b.1 ∉ accepted ∧ b.1.toNat = j
      · rw [if_pos hb, if_pos (Or.inl hb)]
        cases states[j]? with
        | none => simp
        | some st => simp [BlockFetchState.retry_retry]
      · rw [if_neg hb]
        simp only [hb, false_or]

/-- What a response does to the state of block `j`: accepted blocks are complete;
a block the response names, without being accepted, goes back to pending if it was
in flight to the sender. -/
def responseState (peer : PeerId) (blocks : List (UInt32 × Bytes)) (accepted : List UInt32)
    (j : Nat) (st : BlockFetchState) : BlockFetchState :=
  if AcceptedAt accepted j then .complete
  else if NamedAt blocks j then st.retry peer
  else st

theorem getElem?_afterResponse (s : Scheduler) (peer : PeerId) (blocks : List (UInt32 × Bytes))
    (accepted : List UInt32) (j : Nat) :
    (s.afterResponse peer blocks accepted).blockStates[j]? =
      s.blockStates[j]?.map (responseState peer blocks accepted j) := by
  simp only [Scheduler.afterResponse, getElem?_requeueRejectedBlocks, getElem?_markAcceptedBlocks]
  by_cases hacc : AcceptedAt accepted j
  · -- every named index equal to `j` is the accepted one, so nothing is requeued
    have hno : ¬ ∃ b ∈ blocks, b.1 ∉ accepted ∧ b.1.toNat = j := by
      intro h
      obtain ⟨b, -, hb, hbj⟩ := h
      obtain ⟨a, ha, haj⟩ := hacc
      exact hb (UInt32.toNat_inj.mp (haj.trans hbj.symm) ▸ ha)
    rw [if_neg hno, if_pos hacc]
    cases s.blockStates[j]? <;> simp [responseState, hacc]
  · have hiff : (∃ b ∈ blocks, b.1 ∉ accepted ∧ b.1.toNat = j) ↔ NamedAt blocks j := by
      constructor
      · intro h
        obtain ⟨b, hb, -, hbj⟩ := h
        exact ⟨b, hb, hbj⟩
      · intro h
        obtain ⟨b, hb, hbj⟩ := h
        exact ⟨b, hb, fun hmem => hacc ⟨b.1, hmem, hbj⟩, hbj⟩
    rw [if_neg hacc]
    by_cases hnamed : NamedAt blocks j
    · rw [if_pos (hiff.mpr hnamed)]
      cases s.blockStates[j]? <;> simp [responseState, hacc, hnamed]
    · rw [if_neg (hiff.not.mpr hnamed)]
      cases s.blockStates[j]? <;> simp [responseState, hacc, hnamed]

/-- The sender loses the named slots; nobody else loses any. -/
theorem mem_slots_afterResponse {s : Scheduler} {peer p : PeerId}
    {blocks : List (UInt32 × Bytes)} {accepted : List UInt32} {k : UInt32} :
    k ∈ (s.afterResponse peer blocks accepted).slots p ↔
      k ∈ s.slots p ∧ (p = peer → ∀ b ∈ blocks, b.1 ≠ k) := by
  have hempty : blocks.foldl (fun s b => s.erase b.1) (∅ : Finset UInt32) = ∅ := by
    ext i
    rw [mem_foldl_erase]
    simp
  rw [Scheduler.slots_modify rfl (fun t => blocks.foldl (fun s b => s.erase b.1) t) hempty
    (fun _ => rfl) p]
  by_cases hp : p = peer
  · rw [if_pos hp, mem_foldl_erase]
    simp [hp]
  · rw [if_neg hp]
    simp [hp]

theorem advertised_afterResponse (s : Scheduler) (peer : PeerId) (blocks : List (UInt32 × Bytes))
    (accepted : List UInt32) (p : PeerId) :
    (s.afterResponse peer blocks accepted).advertised p = s.advertised p :=
  Scheduler.advertised_modify rfl (by intro st; rfl) p

theorem length_eq_of_getElem?_map {α : Type} {l l' : List α} {f : Nat → α → α}
    (h : ∀ j, l'[j]? = l[j]?.map (f j)) : l'.length = l.length := by
  refine eq_of_forall_ge_iff fun j => ?_
  rw [← List.getElem?_eq_none_iff, ← List.getElem?_eq_none_iff, h, Option.map_eq_none_iff]

theorem length_afterResponse (s : Scheduler) (peer : PeerId) (blocks : List (UInt32 × Bytes))
    (accepted : List UInt32) :
    (s.afterResponse peer blocks accepted).blockStates.length = s.blockStates.length :=
  length_eq_of_getElem?_map (getElem?_afterResponse s peer blocks accepted)

end GuixP2p
