import GuixP2p.Basic

/-!
# GuixP2p.Reputation

`src/reputation.rs`: the counters kept for each peer and the ban threshold. The counters
are machine words; `failed` reads a peer's counter, zero for a peer never seen. The
floating-point score that ranks the peers comes with the selection of providers.
-/

namespace GuixP2p

open GuixP2p.Lib

structure PeerScore where
  completed : UInt32
  failed : UInt32
  bytesServed : UInt64
  lastSeen : Instant
  deriving DecidableEq

/-- The score of a peer seen for the first time. -/
def PeerScore.fresh (now : Instant) : PeerScore :=
  { completed := 0, failed := 0, bytesServed := 0, lastSeen := now }

structure ReputationTracker where
  peers : Table PeerId PeerScore
  banThreshold : UInt32

namespace ReputationTracker

/-- Create an empty tracker that bans peers after `banThreshold` failures. -/
def new (banThreshold : UInt32) : ReputationTracker := { peers := ∅, banThreshold }

/-- Record a successful interaction with a peer. -/
def recordSuccess (t : ReputationTracker) (now : Instant) (peer : PeerId) (bytes : UInt64) :
    ReputationTracker :=
  { t with peers := t.peers.upsert peer (PeerScore.fresh now) fun s =>
      { s with completed := s.completed + 1, bytesServed := s.bytesServed + bytes, lastSeen := now } }

/-- Record a failed interaction with a peer. -/
def recordFailure (t : ReputationTracker) (now : Instant) (peer : PeerId) : ReputationTracker :=
  { t with peers := t.peers.upsert peer (PeerScore.fresh now) fun s =>
      { s with failed := s.failed + 1, lastSeen := now } }

/-- Return true when a peer has crossed the local failure threshold. -/
def isBanned (t : ReputationTracker) (peer : PeerId) : Bool :=
  ((t.peers.lookup peer).map fun s => decide (t.banThreshold ≤ s.failed)).getD false

/-! ### The failure counter -/

/-- A peer's failure counter. -/
def failed (t : ReputationTracker) (peer : PeerId) : UInt32 :=
  ((t.peers.lookup peer).map (·.failed)).getD 0

@[simp] theorem failed_recordSuccess (t : ReputationTracker) (now : Instant) (peer p : PeerId)
    (bytes : UInt64) : (t.recordSuccess now peer bytes).failed p = t.failed p := by
  unfold failed recordSuccess
  by_cases hp : p = peer
  · subst hp
    rw [Table.lookup_upsert_self]
    cases t.peers.lookup p with
    | none => rfl
    | some s => rfl
  · rw [Table.lookup_upsert_of_ne hp]

theorem failed_recordFailure (t : ReputationTracker) (now : Instant) (peer p : PeerId) :
    (t.recordFailure now peer).failed p =
      if p = peer then t.failed p + 1 else t.failed p := by
  unfold failed recordFailure
  by_cases hp : p = peer
  · subst hp
    rw [Table.lookup_upsert_self, if_pos rfl]
    cases t.peers.lookup p with
    | none => rfl
    | some s => rfl
  · rw [Table.lookup_upsert_of_ne hp, if_neg hp]

/-- Charging a list of peers charges each one as often as it is listed. -/
theorem failed_foldl_recordFailure (now : Instant) (p : PeerId) (l : List PeerId)
    (t : ReputationTracker) :
    (l.foldl (fun t q => t.recordFailure now q) t).failed p =
      t.failed p + UInt32.ofNat (l.count p) := by
  induction l generalizing t with
  | nil => simp
  | cons q l ih =>
      rw [List.foldl_cons, ih, failed_recordFailure, List.count_cons]
      by_cases hq : p = q
      · subst hq
        simp only [if_pos, BEq.rfl, UInt32.ofNat_add]
        rw [UInt32.add_assoc, UInt32.add_comm 1]
        rfl
      · simp [hq, Ne.symm hq]

@[simp] theorem banThreshold_recordSuccess (t : ReputationTracker) (now : Instant) (peer : PeerId)
    (bytes : UInt64) : (t.recordSuccess now peer bytes).banThreshold = t.banThreshold := rfl

@[simp] theorem banThreshold_recordFailure (t : ReputationTracker) (now : Instant)
    (peer : PeerId) : (t.recordFailure now peer).banThreshold = t.banThreshold := rfl

theorem banThreshold_foldl_recordFailure (now : Instant) (l : List PeerId) (t : ReputationTracker) :
    (l.foldl (fun t q => t.recordFailure now q) t).banThreshold = t.banThreshold :=
  foldl_part_eq banThreshold (fun t q => banThreshold_recordFailure t now q) l t

/-- A banned peer has failed at least as often as the threshold says. -/
theorem banThreshold_le_of_isBanned {t : ReputationTracker} {peer : PeerId}
    (h : t.isBanned peer = true) : t.banThreshold ≤ t.failed peer := by
  unfold isBanned at h
  unfold failed
  cases hlook : t.peers.lookup peer with
  | none =>
      rw [hlook] at h
      cases h
  | some s =>
      rw [hlook] at h
      exact of_decide_eq_true h

end ReputationTracker

end GuixP2p
