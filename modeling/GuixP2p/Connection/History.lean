import GuixP2p.Connection.Dial

/-!
# GuixP2p.Connection.History

**What other peers do to one peer.** The state of a peer depends on the calls about that peer alone,
and on the prunings (`sameFor_after`): two histories that treat it alike leave it in the same state.
`can_connect` nevertheless compares the size of the whole table with `max_peers` before it looks at
the peer, and the table holds every peer that was ever heard of. So the answer about one peer can be
changed by the others, and `canConnect_isolated_iff` says when it is not.
-/

namespace GuixP2p

open GuixP2p.Lib

/-- A call that may change the connection manager. -/
inductive ConnectionCall
  | onConnectedWithAddresses (peer : PeerId) (addresses : List Text)
  | onConnected (peer : PeerId)
  | onDisconnected (peer : PeerId)
  | onActive (peer : PeerId)
  | addAddress (peer : PeerId) (address : Text)
  | removeAddress (peer : PeerId) (address : Text)
  | recordAttempt (peer : PeerId)
  | pruneDead
  deriving DecidableEq

/-- Is the call about this peer? Pruning is about all. -/
def ConnectionCall.concerns (p : PeerId) : ConnectionCall → Bool
  | .onConnectedWithAddresses peer _ => decide (peer = p)
  | .onConnected peer => decide (peer = p)
  | .onDisconnected peer => decide (peer = p)
  | .onActive peer => decide (peer = p)
  | .addAddress peer _ => decide (peer = p)
  | .removeAddress peer _ => decide (peer = p)
  | .recordAttempt peer => decide (peer = p)
  | .pruneDead => true

namespace ConnectionManager

/-- What a call does, at the time the manager reads from the clock. -/
def call (m : ConnectionManager) (now : Instant) : ConnectionCall → ConnectionManager
  | .onConnectedWithAddresses peer addresses => m.onConnectedWithAddresses now peer addresses
  | .onConnected peer => m.onConnected now peer
  | .onDisconnected peer => m.onDisconnected now peer
  | .onActive peer => m.onActive now peer
  | .addAddress peer address => m.addAddress now peer address
  | .removeAddress peer address => m.removeAddress now peer address
  | .recordAttempt peer => m.recordAttempt now peer
  | .pruneDead => (m.pruneDead now).1

/-- The manager after some calls. -/
def after (m : ConnectionManager) (history : List (Instant × ConnectionCall)) : ConnectionManager :=
  history.foldl (fun m c => m.call c.1 c.2) m

/-- The calls that treat a peer. -/
def treating (p : PeerId) (history : List (Instant × ConnectionCall)) : List (Instant × ConnectionCall) :=
  history.filter fun c => c.2.concerns p

/-! ### The state of one peer -/

theorem lookup_updatePeer (m : ConnectionManager) (now : Instant) (peer p : PeerId) (f : PeerState → PeerState) :
    (m.updatePeer now peer f).peers.lookup p =
      if p = peer then some (f ((m.peers.lookup p).getD (PeerState.fresh now))) else m.peers.lookup p := by
  unfold updatePeer
  split
  next hp =>
    subst hp
    exact Table.lookup_upsert_self _ _ _ _
  next hp => exact Table.lookup_upsert_of_ne hp _ _ _

theorem lookup_modifyPeer (m : ConnectionManager) (peer p : PeerId) (f : PeerState → PeerState) :
    (m.modifyPeer peer f).peers.lookup p =
      if p = peer then (m.peers.lookup p).map f else m.peers.lookup p :=
  Table.lookup_modify _ _ _ _

theorem lookup_pruneDead (m : ConnectionManager) (now : Instant) (p : PeerId) :
    (m.pruneDead now).1.peers.lookup p = (m.peers.lookup p).filter fun st => !m.isStale now st := by
  refine Option.ext fun st => ?_
  rw [Option.filter_eq_some_iff]
  exact Table.lookup_filter_eq_some

/-- The two managers have the same to say about a peer, if it were not for the limit. -/
def SameFor (p : PeerId) (m m' : ConnectionManager) : Prop :=
  m.config = m'.config ∧ m.peers.lookup p = m'.peers.lookup p

variable {p : PeerId} {m m' : ConnectionManager}

theorem SameFor.updatePeer (h : SameFor p m m') (now : Instant) (peer : PeerId) (f : PeerState → PeerState) :
    SameFor p (m.updatePeer now peer f) (m'.updatePeer now peer f) :=
  ⟨h.1, by rw [lookup_updatePeer, lookup_updatePeer, h.2]⟩

theorem SameFor.modifyPeer (h : SameFor p m m') (peer : PeerId) (f : PeerState → PeerState) :
    SameFor p (m.modifyPeer peer f) (m'.modifyPeer peer f) :=
  ⟨h.1, by rw [lookup_modifyPeer, lookup_modifyPeer, h.2]⟩

theorem SameFor.pruneDead (h : SameFor p m m') (now : Instant) :
    SameFor p (m.pruneDead now).1 (m'.pruneDead now).1 := by
  refine ⟨h.1, ?_⟩
  rw [lookup_pruneDead, lookup_pruneDead, h.2]
  unfold isStale
  rw [h.1]

/-- The same call keeps a peer's states the same. -/
theorem SameFor.call (h : SameFor p m m') (now : Instant) (c : ConnectionCall) :
    SameFor p (m.call now c) (m'.call now c) := by
  cases c with
  | onConnectedWithAddresses peer addresses => exact h.updatePeer now peer _
  | onConnected peer => exact h.updatePeer now peer _
  | onDisconnected peer => exact h.modifyPeer peer _
  | onActive peer => exact h.updatePeer now peer _
  | addAddress peer address => exact h.updatePeer now peer _
  | removeAddress peer address => exact h.modifyPeer peer _
  | recordAttempt peer => exact h.updatePeer now peer _
  | pruneDead => exact h.pruneDead now

theorem sameFor_updatePeer {peer : PeerId} (hp : peer ≠ p) (now : Instant) (f : PeerState → PeerState) :
    SameFor p (m.updatePeer now peer f) m :=
  ⟨rfl, by rw [lookup_updatePeer, if_neg (Ne.symm hp)]⟩

theorem sameFor_modifyPeer {peer : PeerId} (hp : peer ≠ p) (f : PeerState → PeerState) :
    SameFor p (m.modifyPeer peer f) m :=
  ⟨rfl, by rw [lookup_modifyPeer, if_neg (Ne.symm hp)]⟩

/-- **Frame.** A call about another peer leaves this one alone. -/
theorem sameFor_call {now : Instant} {c : ConnectionCall} (h : c.concerns p = false) :
    SameFor p (m.call now c) m := by
  cases c with
  | onConnectedWithAddresses peer addresses => exact sameFor_updatePeer (of_decide_eq_false h) now _
  | onConnected peer => exact sameFor_updatePeer (of_decide_eq_false h) now _
  | onDisconnected peer => exact sameFor_modifyPeer (of_decide_eq_false h) _
  | onActive peer => exact sameFor_updatePeer (of_decide_eq_false h) now _
  | addAddress peer address => exact sameFor_updatePeer (of_decide_eq_false h) now _
  | removeAddress peer address => exact sameFor_modifyPeer (of_decide_eq_false h) _
  | recordAttempt peer => exact sameFor_updatePeer (of_decide_eq_false h) now _
  | pruneDead => cases h

theorem SameFor.trans {m'' : ConnectionManager} (h : SameFor p m m') (h' : SameFor p m' m'') : SameFor p m m'' :=
  ⟨h.1.trans h'.1, h.2.trans h'.2⟩

theorem SameFor.symm (h : SameFor p m m') : SameFor p m' m := ⟨h.1.symm, h.2.symm⟩

/-- **A peer's state depends on the calls that treat it alone.** -/
theorem sameFor_after (h : SameFor p m m') (history : List (Instant × ConnectionCall)) :
    SameFor p (m.after history) (m'.after (treating p history)) := by
  induction history generalizing m m' with
  | nil => exact h
  | cons c history ih =>
      cases hc : c.2.concerns p with
      | true =>
          rw [treating, List.filter_cons_of_pos (by simpa using hc)]
          exact ih (h.call c.1 c.2)
      | false =>
          rw [treating, List.filter_cons_of_neg (by simpa using hc)]
          exact ih ((sameFor_call hc).trans h)

/-- Two histories that treat a peer alike leave it in the same state. -/
theorem sameFor_of_treating {history history' : List (Instant × ConnectionCall)}
    (h : treating p history = treating p history') (m : ConnectionManager) :
    SameFor p (m.after history) (m.after history') := by
  refine (sameFor_after ⟨rfl, rfl⟩ history).trans ?_
  rw [h]
  exact (sameFor_after ⟨rfl, rfl⟩ history').symm

/-! ### The answer about one peer -/

/-- What the peer's own state says. -/
def ownAnswer (limits : DialLimits) (now : Instant) : Option PeerState → Except Overflow Bool
  | some st => if st.retryCount < limits.maxRetries then .ok true else backoffExpired limits now st
  | none => .ok true

theorem canConnect_eq (limits : DialLimits) (m : ConnectionManager) (now : Instant) (p : PeerId) :
    canConnect limits m now p =
      if m.peerCount < limits.maxPeers then ownAnswer limits now (m.peers.lookup p) else .ok false := by
  unfold canConnect
  by_cases hbelow : m.peerCount < limits.maxPeers
  · rw [if_neg (Nat.not_le.mpr hbelow), if_pos hbelow]
    cases m.peers.lookup p <;> rfl
  · rw [if_pos (Nat.not_lt.mp hbelow), if_neg hbelow]

/-- **When other peers disable none.** After any history, a tracked peer with retries left can be
dialled exactly if the table is not full. And after two histories that treat a peer alike, the
answers about it are the same exactly if both tables are full or neither is, or if the peer is
backed off anyway. -/
theorem canConnect_isolated_iff {limits : DialLimits} {config : ConnectionConfig} {p : PeerId} {now : Instant}
    {history history' : List (Instant × ConnectionCall)} (h : treating p history = treating p history') :
    (∀ st, ((new config).after history).peers.lookup p = some st → st.retryCount < limits.maxRetries →
      (canConnect limits ((new config).after history) now p = .ok true ↔
        ((new config).after history).peerCount < limits.maxPeers)) ∧
    (canConnect limits ((new config).after history) now p = canConnect limits ((new config).after history') now p ↔
      (((new config).after history).peerCount < limits.maxPeers ↔
        ((new config).after history').peerCount < limits.maxPeers) ∨
      ownAnswer limits now (((new config).after history).peers.lookup p) = .ok false) := by
  constructor
  · intro st hlook hleft
    rw [canConnect_eq, hlook, ownAnswer, if_pos hleft]
    split
    next hbelow => exact iff_of_true rfl hbelow
    next hbelow => exact iff_of_false (fun heq => by cases heq) hbelow
  · have hsame := (sameFor_of_treating h (new config)).2
    rw [canConnect_eq, canConnect_eq, ← hsame]
    by_cases hbelow : ((new config).after history).peerCount < limits.maxPeers
    · by_cases hbelow' : ((new config).after history').peerCount < limits.maxPeers
      · simp [hbelow, hbelow']
      · simp [hbelow, hbelow']
    · by_cases hbelow' : ((new config).after history').peerCount < limits.maxPeers
      · simp [hbelow, hbelow', eq_comm]
      · simp [hbelow, hbelow']

/-- One peer is connected; in the second history a second one is heard of. -/
def alone : List (Instant × ConnectionCall) := [(0, .onConnected ⟨[1]⟩)]

def heardOf : List (Instant × ConnectionCall) :=
  [(0, .onConnected ⟨[1]⟩), (5, .addAddress ⟨[2]⟩ "/ip4/10.0.0.2/tcp/6881".toList)]

theorem canConnect_isolated_sample :
    canConnect ⟨3, 10 ^ 9, 50⟩ ((new ⟨60000⟩).after alone) 9 ⟨[1]⟩ =
      canConnect ⟨3, 10 ^ 9, 50⟩ ((new ⟨60000⟩).after heardOf) 9 ⟨[1]⟩ :=
  (canConnect_isolated_iff (by decide)).2.mpr (Or.inl (by decide))

/-- With a limit of two, the connected peer can no longer be dialled. -/
theorem heard_of_peer_disables :
    treating ⟨[1]⟩ alone = treating ⟨[1]⟩ heardOf ∧
      canConnect ⟨3, 10 ^ 9, 2⟩ ((new ⟨60000⟩).after alone) 9 ⟨[1]⟩ = .ok true ∧
      canConnect ⟨3, 10 ^ 9, 2⟩ ((new ⟨60000⟩).after heardOf) 9 ⟨[1]⟩ = .ok false :=
  ⟨by decide, rfl, rfl⟩

end ConnectionManager

end GuixP2p
